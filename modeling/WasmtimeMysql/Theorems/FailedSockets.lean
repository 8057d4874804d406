import WasmtimeMysql.Lemmas.Ownership
import WasmtimeMysql.Lemmas.SocketResults

/-!
# Failures of `socket` and `accept`

An import that fails returns a negative number, leaves the table as it was and closes the socket that it has already got. Two exits do not
keep to it. On Windows `socket` fetches the error of a failed `ioctlsocket` only after `closesocket`, which may have reset it to 0; the
guest then gets 0. On Unix `accept` takes as much of its buffer as the kernel says and panics if that is more than it has. `reported_iff`
says that there are no others.
-/

namespace WasmtimeMysql

open Effects Bytes

/-! ## The hosts -/

/-- What a failure is judged by on a host: the socket module, its calls with a machine for them, the sockets they make and close, the steps
that failed, and a condition on the answers of the host. -/
structure OpeningHost where
  Entry : Type
  Change : Type
  apply : Change → Entry → Entry
  Net : Sig
  Kernel : Type
  kernel : Machine Net Kernel
  prog : SocketImport → Prog (GuestMem.sum (SocketSig Entry Change Net)) Int32
  Raw : Type
  handles : Handles Net Raw
  stepFailed : Event (GuestMem.sum (SocketSig Entry Change Net)) → Bool
  Tame : List (Event (GuestMem.sum (SocketSig Entry Change Net))) → Prop

namespace OpeningHost

variable (A : OpeningHost)

/-- The commands of the module. -/
@[reducible] def Sockets : Sig := GuestMem.sum (SocketSig A.Entry A.Change A.Net)

/-- The machine of the module. -/
abbrev machine : Machine A.Sockets (Export × (AppState A.Entry × A.Kernel)) := socketMachine guestMachine A.apply A.kernel

/-- The socket that a step made. -/
def madeBy : Event A.Sockets → Option A.Raw
  | ⟨.inr (.inr c), r⟩ => A.handles.made c r
  | _ => none

/-- The socket that a command closes. -/
def closedBy : A.Sockets.Cmd → Option A.Raw
  | .inr (.inr c) => A.handles.closed c
  | _ => none

/-- The command puts a socket into the table. -/
def Inserts : A.Sockets.Cmd → Prop
  | .inr (.inl (.sockets (.insert _))) => True
  | _ => False

/-- Every socket that was made was closed after that. -/
def Closes : List (Event A.Sockets) → Prop
  | [] => True
  | ev :: tr => (∀ raw, A.madeBy ev = some raw → ∃ ev' ∈ tr, A.closedBy ev'.1 = some raw) ∧ Closes tr

/-- The import failed: a step of it did, or it put no socket into the table. -/
def Fails (tr : List (Event A.Sockets)) : Prop := (∃ ev ∈ tr, A.stepFailed ev = true) ∨ ∀ ev ∈ tr, ¬A.Inserts ev.1

/-- The failure is reported and has left nothing behind. -/
structure Reported (a : AppState A.Entry) (tr : List (Event A.Sockets)) (o : Outcome Int32) (a' : AppState A.Entry) : Prop where
  negative : ∃ rc, o = .returned rc ∧ rc < 0
  table : a'.sockets = a.sockets
  closed : A.Closes tr

end OpeningHost

/-- The kernel reports an address no longer than the buffer. -/
def Unix.addressFits : Event Unix.Sockets → Prop
  | ⟨.inr (.inr (.accept _ addrLen)), answer⟩ => 0 ≤ answer.rc → answer.len.toNat ≤ addrLen.toNat
  | _ => True

/-- A Unix host. -/
@[reducible] def unixOpening (lc : Libc) : OpeningHost where
  Entry := Unix.HostSocket
  Change := Empty
  apply := Empty.elim
  Net := Unix.Net
  Kernel := Unit
  kernel := .any
  prog := Unix.prog lc
  Raw := Int32
  handles := Unix.handles
  stepFailed := Unix.stepFailed
  Tame tr := ∀ ev ∈ tr, Unix.addressFits ev

/-- The step failed. -/
def Windows.stepFailed : Event Windows.Sockets → Bool
  | ⟨.inl c, r⟩ => memFailed c r
  | ⟨.inr (.inl .networkAllowed), allowed⟩ => !allowed
  | ⟨.inr (.inl (.sockets (.insert _))), _⟩ => false
  | ⟨.inr (.inl (.sockets (.get _))), found⟩ => found.isNone
  | ⟨.inr (.inl (.sockets (.remove _))), found⟩ => found.isNone
  | ⟨.inr (.inl (.sockets (.modify ..))), found⟩ => found.isNone
  | ⟨.inr (.inr c), r⟩ => failed c r

/-- The mode of a socket could not be set. -/
def Windows.modeRefused : Event Windows.Sockets → Prop
  | ⟨.inr (.inr (.ioctlsocketFionbio ..)), rc⟩ => rc = socketError
  | _ => False

/-- The last error is found to be 0. -/
def Windows.errorReset : Event Windows.Sockets → Prop
  | ⟨.inr (.inr .wsaGetLastError), code⟩ => code = 0
  | _ => False

/-- Windows. -/
@[reducible] def windowsOpening : OpeningHost where
  Entry := Windows.HostSocket
  Change := Int32
  apply := Windows.HostSocket.setStatusFlags
  Net := Windows.Net
  Kernel := Int32
  kernel := Windows.lastError
  prog := Windows.prog
  Raw := Windows.Socket
  handles := Windows.handles
  stepFailed := Windows.stepFailed
  Tame tr := (∃ ev ∈ tr, Windows.modeRefused ev) → ∀ ev ∈ tr, ¬Windows.errorReset ev

/-- Each host with its calls. -/
@[reducible] def HostOs.opening : HostOs → OpeningHost
  | .linux => unixOpening WasmtimeMysql.linux
  | .macos => unixOpening WasmtimeMysql.macos
  | .windows => windowsOpening

namespace FailedSocketsAux

/-! ### The ways an import ends -/

section
variable {A : OpeningHost} {a a' : AppState A.Entry} {tr tr' : List (Event A.Sockets)} {o : Outcome Int32}

/-- Every step of a trace that is written out. -/
def Each {S : Sig} (P : Event S → Prop) : List (Event S) → Prop
  | [] => True
  | ev :: tr => P ev ∧ Each P tr

/-- One by one is the same as all. -/
theorem Each.forall_mem {S : Sig} {P : Event S → Prop} {tr : List (Event S)} (h : Each P tr) : ∀ ev ∈ tr, P ev := by
  induction tr with
  | nil => exact nofun
  | cons ev tr ih => exact List.forall_mem_cons.mpr ⟨h.1, ih h.2⟩

/-- Events that all are so, and more of them. -/
theorem Each.append {S : Sig} {P : Event S → Prop} {tr tr' : List (Event S)} (h : ∀ ev ∈ tr, P ev) (h' : Each P tr') :
    Each P (tr ++ tr') := by
  induction tr with
  | nil => exact h'
  | cons ev tr ih =>
    rw [List.forall_mem_cons] at h
    exact ⟨h.1, ih h.2⟩

/-- What is shown of every run. -/
def Exact (A : OpeningHost) (a : AppState A.Entry) (tr : List (Event A.Sockets)) (o : Outcome Int32) (a' : AppState A.Entry) : Prop :=
  (A.Fails tr → A.Reported a tr o a') ↔ A.Tame tr

/-- Where the host behaves and the failure is reported, both sides hold. -/
theorem exact_of_reported (htame : A.Tame tr) (h : A.Reported a tr o a') : Exact A a tr o a' := iff_of_true (fun _ => h) htame

/-- The errno is returned and the table is as it was. -/
theorem exact_of_errno {errno : Errno} (htame : A.Tame tr) (hcloses : A.Closes tr) : Exact A a tr (.returned (negErrno errno)) a :=
  exact_of_reported htame ⟨⟨_, rfl, negErrno_lt_zero errno⟩, rfl, hcloses⟩

/-- The socket is in the table and every step succeeded. -/
theorem exact_of_inserted (htame : A.Tame tr) (hclean : Each (fun ev => A.stepFailed ev = false) tr)
    (hinserts : ∃ ev ∈ tr, A.Inserts ev.1) :
    Exact A a tr o a' := by
  refine iff_of_true ?_ htame
  rintro (⟨ev, hev, hfailed⟩ | hnone)
  · rw [hclean.forall_mem ev hev] at hfailed
    cases hfailed
  · obtain ⟨ev, hev, hins⟩ := hinserts
    exact absurd hins (hnone ev hev)

/-- The host is not tame, and the failure is not reported. -/
theorem exact_of_unreported (htame : ¬A.Tame tr) (hfails : A.Fails tr) (h : ∀ rc, o = .returned rc → ¬rc < 0) : Exact A a tr o a' := by
  refine iff_of_false ?_ htame
  intro hreported
  obtain ⟨rc, ho, hneg⟩ := (hreported hfails).negative
  exact h rc ho hneg

/-- No socket was made but by a step whose socket was closed later. -/
theorem closes_append (h : ∀ ev ∈ tr, A.madeBy ev = none) (h' : A.Closes tr') : A.Closes (tr ++ tr') := by
  induction tr with
  | nil => exact h'
  | cons ev tr ih =>
    rw [List.forall_mem_cons] at h
    exact ⟨forall_of_eq_none h.1, ih h.2⟩

/-- Where no socket was made none stays open. -/
theorem closes_of_none (h : Each (fun ev => A.madeBy ev = none) tr) : A.Closes tr := by
  have hcloses := closes_append (A := A) h.forall_mem (show A.Closes [] from trivial)
  rwa [List.append_nil] at hcloses

/-- One socket was made, and it was closed later. -/
theorem closes_of_closed (before : List (Event A.Sockets)) {ev : Event A.Sockets} {raw : A.Raw}
    (hbefore : Each (fun ev => A.madeBy ev = none) before) (hmade : A.madeBy ev = some raw)
    (hclosed : ∃ ev' ∈ tr, A.closedBy ev'.1 = some raw) (hafter : A.Closes tr) : A.Closes (before ++ ev :: tr) := by
  refine closes_append hbefore.forall_mem ⟨?_, hafter⟩
  intro raw' hraw'
  rw [hmade] at hraw'
  cases hraw'
  exact hclosed

/-- Where nothing is inserted and no socket made, the call fails as it should. -/
theorem fails_of_none (h : Each (fun ev => ¬A.Inserts ev.1) tr) : A.Fails tr := .inr h.forall_mem

end

/-! ### On Unix -/

section
variable (lc : Libc) {e : Export} {a : AppState Unix.HostSocket}

open Unix

/-- A call on the flags of a socket, or for the last error. -/
def IsFlagCall : Sockets.Cmd → Prop
  | .inr (.inr (.fcntl ..)) => True
  | .inr (.inr .lastOsError) => True
  | _ => False

/-- An address that fits is all that Unix needs. -/
theorem unix_tame {tr : List (Event Sockets)} (h : Each addressFits tr) : (unixOpening lc).Tame tr := h.forall_mem

/-- A call for the flags of a socket makes none, ... -/
theorem IsFlagCall.madeBy {ev : Event Sockets} (h : IsFlagCall ev.1) : (unixOpening lc).madeBy ev = none := by
  obtain ⟨c | c | c, r⟩ := ev
  · rfl
  · rfl
  · cases c with
    | socket => exact h.elim
    | accept => exact h.elim
    | _ => rfl

/-- ... and reports no address. -/
theorem IsFlagCall.addressFits {ev : Event Sockets} (h : IsFlagCall ev.1) : addressFits ev := by
  obtain ⟨c | c | c, r⟩ := ev
  · trivial
  · trivial
  · cases c with
    | accept => exact h.elim
    | _ => trivial

/-- `configure_socket_type_flags` only makes calls on the flags, and if it succeeds they all did. -/
def Configured (tr : List (Event Sockets)) (result : Except Errno Unit) : Prop :=
  (∀ ev ∈ tr, IsFlagCall ev.1) ∧ (result = .ok () → ∀ ev ∈ tr, stepFailed ev = false)

/-- A flag is added to a socket with calls for its flags, and the result is theirs. -/
theorem wp_addFlag (wanted : Bool) (rawFd : Int32) (getFlags : Fcntl) (setFlags : Int32 → Fcntl) (flag : Int32) :
    wp (machine .any) (addFlag lc wanted rawFd getFlags setFlags flag)
      (fun tr o s' => s' = (e, a, ()) ∧ ∃ result, o = .returned result ∧ Configured tr result) (e, a, ()) := by
  unfold addFlag
  split
  · simp only [wp_bind, wp_libc, wpNext_returned]
    intro flags _ _
    split
    · simp only [wp_bind, wp_lastErrno, wpNext_returned]
      intro code _ _
      exact ⟨rfl, _, rfl, by simp [IsFlagCall], fun h => by cases h⟩
    · rename_i hflags
      simp only [wp_bind, wp_libc, wpNext_returned]
      intro rc _ _
      split
      · simp only [wp_bind, wp_lastErrno, wpNext_returned]
        intro code _ _
        exact ⟨rfl, _, rfl, by simp [IsFlagCall], fun h => by cases h⟩
      · rename_i hrc
        exact ⟨rfl, _, rfl, by simp [IsFlagCall], fun _ => by simp [stepFailed, failed, hflags, hrc]⟩
  · exact ⟨rfl, _, rfl, List.forall_mem_nil _, fun _ => List.forall_mem_nil _⟩

/-- Flags that are set one after another. -/
theorem Configured.append {tr tr' : List (Event Sockets)} {result : Except Errno Unit} (h : Configured tr (.ok ()))
    (h' : Configured tr' result) : Configured (tr ++ tr') result := by
  refine ⟨?_, fun hok => ?_⟩
  · rw [List.forall_mem_append]
    exact ⟨h.1, h'.1⟩
  · rw [List.forall_mem_append]
    exact ⟨h.2 rfl, h'.2 hok⟩

/-- The flags of a new socket. -/
theorem wp_configureSocketTypeFlags (rawFd : Int32) (socketType : NormalizedSocketType) :
    wp (machine .any) (configureSocketTypeFlags lc rawFd socketType)
      (fun tr o s' => s' = (e, a, ()) ∧ ∃ result, o = .returned result ∧ Configured tr result) (e, a, ()) := by
  unfold configureSocketTypeFlags
  rw [wp_bind]
  refine wp_mono (wp_addFlag lc _ _ _ _ _) ?_
  rintro tr o s' ⟨rfl, result, rfl, hresult⟩
  rcases result with errno | ⟨⟩
  · exact ⟨rfl, _, rfl, by simpa using hresult.1, nofun⟩
  · refine wp_mono (wp_addFlag lc _ _ _ _ _) ?_
    rintro tr' o' s' ⟨rfl, result, rfl, hresult'⟩
    exact ⟨rfl, result, rfl, hresult.append hresult'⟩

/-- `socket` on Unix. -/
theorem unix_socket_exact (domain ty protocol : Int32) :
    wp (machine .any) (Unix.socket lc domain ty protocol) (fun tr o s' => Exact (unixOpening lc) a tr o s'.2.1) (e, a, ()) := by
  simp only [Unix.socket, wp_bind, wp_networkAllowed, wpNext_returned]
  split
  · exact exact_of_errno (unix_tame lc ⟨trivial, trivial⟩) (closes_of_none ⟨rfl, trivial⟩)
  · rename_i hallowed
    simp only [Bool.not_eq_true', Bool.not_eq_false] at hallowed
    cases normalizeSocketType lc ty with
    | error errno => exact exact_of_errno (unix_tame lc ⟨trivial, trivial⟩) (closes_of_none ⟨rfl, trivial⟩)
    | ok socketType =>
      simp only [Prog.pure_eq, Prog.ret_bind, wp_bind, wp_libc, wpNext_returned]
      intro rawFd _ _
      split
      · rename_i hraw
        simp only [wp_negLastErrno]
        intro code _ _
        exact exact_of_errno (unix_tame lc ⟨trivial, trivial, trivial, trivial⟩) (closes_of_none ⟨rfl, if_pos hraw, rfl, trivial⟩)
      · rename_i hraw
        rw [wp_bind]
        refine wp_mono (wp_configureSocketTypeFlags lc rawFd socketType) ?_
        rintro tr o s' ⟨rfl, result, rfl, hflags, hclean⟩
        have hmadeRaw : (unixOpening lc).madeBy ⟨.inr (.inr (.socket (normalizeSocketDomain lc domain) socketType.ty protocol)), rawFd⟩ =
          some rawFd := if_neg hraw
        have hfits : ∀ ev ∈ tr, addressFits ev := fun ev hev => (hflags ev hev).addressFits
        have hmade : ∀ ev ∈ tr, (unixOpening lc).madeBy ev = none := fun ev hev => (hflags ev hev).madeBy lc
        rcases result with errno | ⟨⟩
        · simp only [wpNext_returned, wp_bind, wp_libc, List.cons_append, List.nil_append]
          intro rc _ _
          refine exact_of_errno (unix_tame lc ⟨trivial, trivial, .append hfits ⟨trivial, trivial⟩⟩) ?_
          have hlast : (unixOpening lc).Closes [⟨.inr (.inr (.close rawFd)), rc⟩] := closes_of_none ⟨rfl, trivial⟩
          exact closes_of_closed [_] ⟨rfl, trivial⟩ hmadeRaw ⟨_, List.mem_append_right _ (.head _), rfl⟩ (closes_append hmade hlast)
        · simp only [wpNext_returned, wp_insert, List.cons_append, List.nil_append]
          refine exact_of_inserted ?_ ?_ ⟨_, .tail _ (.tail _ (List.mem_append_right _ (.head _))), trivial⟩
          · exact unix_tame lc ⟨trivial, trivial, .append hfits ⟨trivial, trivial⟩⟩
          · exact ⟨by rw [hallowed]; rfl, decide_eq_false hraw, .append (hclean rfl) ⟨rfl, trivial⟩⟩

/-- `accept` on Unix. -/
theorem unix_accept_exact (fd addrPtr addrLenPtr : Int32) :
    wp (machine .any) (Unix.accept lc fd addrPtr addrLenPtr) (fun tr o s' => Exact (unixOpening lc) a tr o s'.2.1) (e, a, ()) := by
  simp only [Unix.accept, wp_bind, wp_get, wpNext_returned]
  cases hfd : a.sockets.find fd with
  | none => exact exact_of_errno (unix_tame lc ⟨trivial, trivial⟩) (closes_of_none ⟨rfl, trivial⟩)
  | some entry =>
    simp only [okOrEbadf, Prog.pure_eq, Prog.ret_bind, wp_bind, wp_readU32, wpNext_returned]
    cases hword : e.readU32 addrLenPtr with
    | error errno => exact exact_of_errno (unix_tame lc ⟨trivial, trivial, trivial⟩) (closes_of_none ⟨rfl, rfl, trivial⟩)
    | ok word =>
      simp only [wp_bind, wp_alloc, wp_libc, wpNext_returned]
      intro answer _ _
      split
      · rename_i hrc
        simp only [wp_negLastErrno]
        intro code _ _
        refine exact_of_errno ?_ (closes_of_none ⟨rfl, rfl, rfl, if_pos hrc, rfl, trivial⟩)
        exact unix_tame lc ⟨trivial, trivial, trivial, fun hpos => absurd hrc (Int32.not_lt.mpr hpos), trivial, trivial⟩
      · rename_i hrc
        simp only [wp_bind, wp_sliceTo]
        split
        · rename_i hlen
          have hfits : answer.len.toNat ≤ word.toNat := by simpa [denormalizeSockaddrForGuest] using hlen
          have hmade : (unixOpening lc).madeBy ⟨.inr (.inr (.accept entry.rawFd word)), answer⟩ = some answer.rc := if_neg hrc
          simp only [wpNext_returned, wp_bind, wp_writeGuest]
          generalize hwrote : e.writeAnswer addrPtr _ = wrote
          rcases wrote with errno | ⟨⟩
          · simp only [wp_bind, wp_libc, wpNext_returned, List.cons_append, List.nil_append]
            intro rc _ _
            refine exact_of_errno (unix_tame lc ⟨trivial, trivial, trivial, fun _ => hfits, trivial, trivial, trivial⟩) ?_
            exact closes_of_closed [_, _, _] ⟨rfl, rfl, rfl, trivial⟩ hmade ⟨_, .tail _ (.head _), rfl⟩ (closes_of_none ⟨rfl, rfl, trivial⟩)
          · simp only [wp_bind, wp_writeU32, wpNext_returned]
            generalize hwroteLen : Export.writeAnswer _ _ _ = wroteLen
            rcases wroteLen with errno | ⟨⟩
            · simp only [wp_bind, wp_libc, wpNext_returned, List.cons_append, List.nil_append]
              intro rc _ _
              refine exact_of_errno (unix_tame lc ⟨trivial, trivial, trivial, fun _ => hfits, trivial, trivial, trivial, trivial⟩) ?_
              exact closes_of_closed [_, _, _] ⟨rfl, rfl, rfl, trivial⟩ hmade ⟨_, .tail _ (.tail _ (.head _)), rfl⟩
                (closes_of_none ⟨rfl, rfl, rfl, trivial⟩)
            · simp only [wp_insert, List.cons_append, List.nil_append]
              obtain ⟨bytes, hread⟩ := Export.readGuest_of_readU32 hword
              refine exact_of_inserted ?_ ?_ ⟨_, List.mem_append_right [_, _, _, _, _, _] (.head _), trivial⟩
              · exact unix_tame lc ⟨trivial, trivial, trivial, fun _ => hfits, trivial, trivial, trivial, trivial⟩
              · exact ⟨rfl, by rw [hread]; rfl, rfl, decide_eq_false hrc, rfl, rfl, rfl, trivial⟩
        · rename_i hlen
          refine exact_of_unreported (fun htame => hlen ?_)
            (fails_of_none ⟨not_false, not_false, not_false, not_false, trivial⟩) fun _ h => by cases h
          have hfits : answer.len.toNat ≤ word.toNat := htame _ (.tail _ (.tail _ (.tail _ (.head _)))) (Int32.not_lt.mp hrc)
          simpa [denormalizeSockaddrForGuest] using hfits

end

/-! ### On Windows -/

section
variable {e : Export} {a : AppState Windows.HostSocket} {err : Int32}

open Windows

/-- No call set a mode. -/
theorem tame_of_not_refused {tr : List (Event Sockets)} (h : Each (fun ev => ¬modeRefused ev) tr) : windowsOpening.Tame tr := by
  rintro ⟨ev, hev, hrefused⟩
  exact absurd hrefused (h.forall_mem ev hev)

/-- The number of an error is returned and the table is as it was. -/
theorem exact_of_code {tr : List (Event Sockets)} {code : Int32} (hcode : code ≠ 0) (htame : windowsOpening.Tame tr)
    (hcloses : windowsOpening.Closes tr) : Exact windowsOpening a tr (.returned (-socketErrno code)) a :=
  exact_of_reported htame ⟨⟨_, rfl, neg_socketErrno_lt_zero hcode⟩, rfl, hcloses⟩

/-- `socket` on Windows. -/
theorem windows_socket_exact (domain ty protocol : Int32) :
    wp (machine lastError) (Windows.socket domain ty protocol) (fun tr o s' => Exact windowsOpening a tr o s'.2.1) (e, a, err) := by
  simp only [Windows.socket, wp_bind, wp_networkAllowed, wpNext_returned]
  split
  · exact exact_of_errno (tame_of_not_refused ⟨not_false, trivial⟩) (closes_of_none ⟨rfl, trivial⟩)
  · rename_i hallowed
    simp only [Bool.not_eq_true', Bool.not_eq_false] at hallowed
    simp only [wp_bind, wp_ensureWinsock]
    intro startup err₁ _
    by_cases hstartup : startup = 0
    · simp only [hstartup, ↓reduceIte, wpNext_returned]
      cases normalizeSocketType ty with
      | error errno =>
        exact exact_of_errno (tame_of_not_refused ⟨not_false, not_false, trivial⟩) (closes_of_none ⟨rfl, rfl, trivial⟩)
      | ok socketType =>
        simp only [Prog.pure_eq, Prog.ret_bind, wp_bind, wp_ws, wpNext_returned]
        intro rawSocket err₂ hsocket
        split
        · rename_i hraw
          have herr : err₂ ≠ 0 := by simpa [lastError, failed, hraw] using hsocket
          simp only [wp_negLastSocketErrno]
          rintro code err₃ ⟨rfl, rfl⟩
          refine exact_of_code herr (tame_of_not_refused ⟨not_false, not_false, not_false, not_false, trivial⟩) (closes_of_none ?_)
          exact ⟨rfl, rfl, if_pos hraw, rfl, trivial⟩
        · rename_i hraw
          have hmade : windowsOpening.madeBy ⟨.inr (.inr (.socket (normalizeSocketDomain domain) socketType.ty protocol)), rawSocket⟩ =
            some rawSocket := if_neg hraw
          split
          · simp only [wp_bind, wp_ws, wpNext_returned]
            intro rc err₃ _
            split
            · rename_i hrc
              simp only [wp_bind, wp_ws, wpNext_returned, wp_negLastSocketErrno, List.cons_append, List.nil_append]
              intro closed err₄ _ code err₅ _
              by_cases hreset : code = 0
              · -- the socket is closed and the error is gone: 0 is returned
                refine exact_of_unreported ?_ (.inl ⟨_, .tail _ (.tail _ (.tail _ (.head _))), beq_iff_eq.mpr hrc⟩) ?_
                · intro htame
                  have hkept := htame ⟨_, .tail _ (.tail _ (.tail _ (.head _))), hrc⟩
                  exact hkept _ (List.mem_append_right [_, _, _, _, _] (.head _)) hreset
                · rintro rc ⟨⟩
                  rw [hreset]
                  decide
              · refine exact_of_code hreset ?_ ?_
                · exact fun _ => Each.forall_mem ⟨not_false, not_false, not_false, not_false, not_false, hreset, trivial⟩
                · exact closes_of_closed [_, _] ⟨rfl, rfl, trivial⟩ hmade ⟨_, .tail _ (.head _), rfl⟩
                    (closes_of_none ⟨rfl, rfl, rfl, trivial⟩)
            · rename_i hrc
              simp only [wp_insert, List.cons_append, List.nil_append]
              refine exact_of_inserted ?_ ?_ ⟨_, List.mem_append_right [_, _, _, _] (.head _), trivial⟩
              · exact tame_of_not_refused ⟨not_false, not_false, not_false, hrc, not_false, trivial⟩
              · exact ⟨by rw [hallowed]; rfl, rfl, beq_false_of_ne hraw, beq_false_of_ne hrc, rfl, trivial⟩
          · simp only [wp_insert, List.cons_append, List.nil_append]
            refine exact_of_inserted ?_ ?_ ⟨_, List.mem_append_right [_, _, _] (.head _), trivial⟩
            · exact tame_of_not_refused ⟨not_false, not_false, not_false, not_false, trivial⟩
            · exact ⟨by rw [hallowed]; rfl, rfl, beq_false_of_ne hraw, rfl, trivial⟩
    · simp only [hstartup, ↓reduceIte, wpNext_returned]
      exact exact_of_code hstartup (tame_of_not_refused ⟨not_false, not_false, trivial⟩) (closes_of_none ⟨rfl, rfl, trivial⟩)

/-- `accept` on Windows. -/
theorem windows_accept_exact (fd addrPtr addrLenPtr : Int32) :
    wp (machine lastError) (Windows.accept fd addrPtr addrLenPtr) (fun tr o s' => Exact windowsOpening a tr o s'.2.1) (e, a, err) := by
  simp only [Windows.accept, wp_bind, wp_get, wpNext_returned]
  cases hfd : a.sockets.find fd with
  | none => exact exact_of_errno (tame_of_not_refused ⟨not_false, trivial⟩) (closes_of_none ⟨rfl, trivial⟩)
  | some entry =>
    simp only [okOrEbadf, Prog.pure_eq, Prog.ret_bind, wp_bind, wp_readSockaddrLen, wpNext_returned]
    cases hlen : (e.readU32 addrLenPtr).bind checkedSockaddrLen with
    | error errno => exact exact_of_errno (tame_of_not_refused ⟨not_false, not_false, trivial⟩) (closes_of_none ⟨rfl, rfl, trivial⟩)
    | ok requestedLen =>
      simp only [wp_bind, wp_alloc, wp_ws, wpNext_returned]
      intro answer err₁ haccept
      split
      · rename_i hinvalid
        have herr : err₁ ≠ 0 := by simpa [lastError, failed, hinvalid] using haccept
        simp only [wp_negLastSocketErrno]
        rintro code err₂ ⟨rfl, rfl⟩
        refine exact_of_code herr (tame_of_not_refused ⟨not_false, not_false, not_false, not_false, not_false, trivial⟩) (closes_of_none ?_)
        exact ⟨rfl, rfl, rfl, if_pos hinvalid, rfl, trivial⟩
      · rename_i hvalid
        have hmade : windowsOpening.madeBy ⟨.inr (.inr (.accept entry.rawSocket (Int32.ofNat requestedLen))), answer⟩ =
          some answer.accepted := if_neg hvalid
        split
        · simp only [wp_bind, wp_ws, wpNext_returned, List.cons_append, List.nil_append]
          intro rc _ _
          refine exact_of_errno (tame_of_not_refused ⟨not_false, not_false, not_false, not_false, not_false, trivial⟩) ?_
          exact closes_of_closed [_, _, _] ⟨rfl, rfl, rfl, trivial⟩ hmade ⟨_, .head _, rfl⟩ (closes_of_none ⟨rfl, trivial⟩)
        · rename_i hreported
          have hslice : asUsize answer.len ≤ (denormalizeSockaddrForGuest (fill requestedLen answer.data) entry.guestDomain).length := by
            simp only [denormalizeSockaddrForGuest, length_writeSockaddrFamily, length_fill]
            omega
          simp only [wp_bind, wp_sliceTo, if_pos hslice, wpNext_returned, wp_writeGuest]
          generalize hwrote : e.writeAnswer addrPtr _ = wrote
          rcases wrote with errno | ⟨⟩
          · simp only [wp_bind, wp_ws, wpNext_returned, List.cons_append, List.nil_append]
            intro rc _ _
            refine exact_of_errno (tame_of_not_refused ⟨not_false, not_false, not_false, not_false, not_false, not_false, trivial⟩) ?_
            exact closes_of_closed [_, _, _] ⟨rfl, rfl, rfl, trivial⟩ hmade ⟨_, .tail _ (.head _), rfl⟩ (closes_of_none ⟨rfl, rfl, trivial⟩)
          · simp only [wp_bind, wp_writeU32, wpNext_returned]
            generalize hwroteLen : Export.writeAnswer _ _ _ = wroteLen
            rcases wroteLen with errno | ⟨⟩
            · simp only [wp_bind, wp_ws, wpNext_returned, List.cons_append, List.nil_append]
              intro rc _ _
              refine exact_of_errno ?_ ?_
              · exact tame_of_not_refused ⟨not_false, not_false, not_false, not_false, not_false, not_false, not_false, trivial⟩
              · exact closes_of_closed [_, _, _] ⟨rfl, rfl, rfl, trivial⟩ hmade ⟨_, .tail _ (.tail _ (.head _)), rfl⟩
                  (closes_of_none ⟨rfl, rfl, rfl, trivial⟩)
            · simp only [wp_insert, List.cons_append, List.nil_append]
              obtain ⟨bytes, hread⟩ : ∃ bytes, e.readGuest addrLenPtr 4 = .ok bytes := by
                cases hword : e.readU32 addrLenPtr with
                | error errno =>
                  rw [hword] at hlen
                  cases hlen
                | ok word => exact Export.readGuest_of_readU32 hword
              refine exact_of_inserted ?_ ?_ ⟨_, List.mem_append_right [_, _, _, _, _, _] (.head _), trivial⟩
              · exact tame_of_not_refused ⟨not_false, not_false, not_false, not_false, not_false, not_false, not_false, trivial⟩
              · exact ⟨rfl, by rw [hread]; rfl, rfl, beq_false_of_ne hvalid, rfl, rfl, rfl, trivial⟩

/-! A call for a nonblocking socket whose mode cannot be set. -/

/-- No sockets yet. -/
def noSockets : AppState HostSocket := ⟨true, .empty socketFdBase HostSocket⟩

/-- The mode is refused with WSAEINVAL, the socket is closed, and an error is found. -/
def refusedTrace (code : Int32) : List (Event Sockets) :=
  [⟨.inr (.inl .networkAllowed), true⟩, ⟨.inr (.inr .wsaStartup), (0 : Int32)⟩, ⟨.inr (.inr (.socket 2 1 0)), (5 : Socket)⟩,
    ⟨.inr (.inr (.ioctlsocketFionbio 5 1)), socketError⟩, ⟨.inr (.inr (.closesocket 5)), (0 : Int32)⟩,
    ⟨.inr (.inr .wsaGetLastError), code⟩]

/-- WinSock refuses the socket with this error. -/
theorem runs_refused {code : Int32} (h : code = 10022 ∨ code = 0) :
    Runs windowsOpening.machine (windowsOpening.prog (.socket 2 0x801 0)) (.missing, noSockets, 0) (refusedTrace code)
      (.returned (-socketErrno code)) (.missing, noSockets, code) := by
  have hsocket : lastError 0 (.socket 2 1 0) (5 : Socket) 0 := .inl rfl
  have hmode : lastError 0 (.ioctlsocketFionbio 5 1) socketError 10022 := show (10022 : Int32) ≠ 0 by decide
  have hclose : lastError 10022 (.closesocket 5) (0 : Int32) code := h
  have hcode : lastError code .wsaGetLastError code code := ⟨rfl, rfl⟩
  refine .via (.missing, noSockets, 0) ⟨⟨rfl, rfl⟩, rfl⟩ (.via (.missing, noSockets, 0) ⟨⟨trivial, rfl⟩, rfl⟩ ?_)
  refine .via (.missing, noSockets, 0) ⟨⟨hsocket, rfl⟩, rfl⟩ (.via (.missing, noSockets, 10022) ⟨⟨hmode, rfl⟩, rfl⟩ ?_)
  refine .via (.missing, noSockets, code) ⟨⟨hclose, rfl⟩, rfl⟩ (.via (.missing, noSockets, code) ⟨⟨hcode, rfl⟩, rfl⟩ ?_)
  exact .ret _ _

end

end FailedSocketsAux

open FailedSocketsAux in
/-- A failure of `socket` or `accept` is reported, and has left nothing behind, in exactly the runs in which the host is tame: WinSock does
not reset the error of a failed `ioctlsocket` when the socket is closed, and a Unix kernel reports no longer address than the buffer. -/
theorem reported_iff (os : HostOs) (c : SocketImport) (hc : c.Opens) (e : Export) (a : AppState os.opening.Entry) (k : os.opening.Kernel)
    (tr : List (Event os.opening.Sockets)) (o : Outcome Int32) (s' : Export × (AppState os.opening.Entry × os.opening.Kernel))
    (hrun : Runs os.opening.machine (os.opening.prog c) (e, a, k) tr o s') :
    (os.opening.Fails tr → os.opening.Reported a tr o s'.2.1) ↔ os.opening.Tame tr := by
  have hunix (lc : Libc) (c : SocketImport) (hc : c.Opens) (a : AppState Unix.HostSocket) :
      wp (Unix.machine .any) (Unix.prog lc c) (fun tr o s' => Exact (unixOpening lc) a tr o s'.2.1) (e, a, ()) := by
    cases c with
    | socket domain ty protocol => exact unix_socket_exact lc domain ty protocol
    | accept fd addrPtr addrLenPtr => exact unix_accept_exact lc fd addrPtr addrLenPtr
    | _ => exact hc.elim
  cases os with
  | linux => exact hrun.of_wp (hunix linux c hc a)
  | macos => exact hrun.of_wp (hunix macos c hc a)
  | windows =>
    cases c with
    | socket domain ty protocol => exact hrun.of_wp (windows_socket_exact domain ty protocol)
    | accept fd addrPtr addrLenPtr => exact hrun.of_wp (windows_accept_exact fd addrPtr addrLenPtr)
    | _ => exact hc.elim

open FailedSocketsAux in
/-- The error is still there after the socket was closed. -/
theorem reported_refused_mode : windowsOpening.Fails (refusedTrace 10022) ∧
    windowsOpening.Reported noSockets (refusedTrace 10022) (.returned (-28)) noSockets := by
  have hfails : windowsOpening.Fails (refusedTrace 10022) := .inl ⟨_, .tail _ (.tail _ (.tail _ (.head _))), rfl⟩
  refine ⟨hfails, (reported_iff .windows (.socket 2 0x801 0) trivial .missing noSockets 0 _ _ _ (runs_refused (.inl rfl))).mpr ?_ hfails⟩
  simp [refusedTrace, Windows.errorReset]

open FailedSocketsAux in
/-- The error was reset when the socket was closed: the guest gets 0. -/
theorem unreported_refused_mode : ¬∀ (os : HostOs) (c : SocketImport), c.Opens → ∀ e a k tr o s',
    Runs os.opening.machine (os.opening.prog c) (e, a, k) tr o s' → os.opening.Fails tr → os.opening.Reported a tr o s'.2.1 := by
  intro h
  have hfails : windowsOpening.Fails (refusedTrace 0) := .inl ⟨_, .tail _ (.tail _ (.tail _ (.head _))), rfl⟩
  obtain ⟨rc, ho, hneg⟩ := (h .windows (.socket 2 0x801 0) trivial .missing noSockets 0 _ _ _ (runs_refused (.inr rfl)) hfails).negative
  cases ho
  exact absurd hneg (by decide)

end WasmtimeMysql
