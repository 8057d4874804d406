import WasmtimeMysql.Lemmas.Numbers
import WasmtimeMysql.Lib.Ledger

/-!
# Who owns a host socket

A host socket has one owner: the table, or the import that made it or took it out of the table and has it in hand. An import inserts or
closes what it has in hand, and makes or takes out nothing while it has something; when it returns its hand is empty (`owning`). What the
host has given out and not taken back is then always what the table has and what is in hand (`Owned`), as long as the counter of the table
has not stopped: after that an insert may replace an entry, and nothing closes the socket of the old one.
-/

namespace WasmtimeMysql

open Effects

section
variable {E U R : Type} {Net : Sig} (raw : E → R) (H : Handles Net R)

/-- The socket an import has in hand: it comes from the host or out of the table, and goes into the table or back to the host. -/
def owning : Discipline (GuestMem.sum (SocketSig E U Net)) (Option R) where
  allows hand
    | .inl _ => True
    | .inr (.inl .networkAllowed) => True
    | .inr (.inl (.sockets (.get _))) => True
    | .inr (.inl (.sockets (.remove _))) => hand = none
    | .inr (.inl (.sockets (.insert e))) => hand = some (raw e)
    | .inr (.inl (.sockets (.modify ..))) => True
    | .inr (.inr c) => (∀ r, H.closed c = some r → hand = some r) ∧ ∀ answer r, H.made c answer = some r → hand = none
  relies _ _ := True
  next hand
    | .inr (.inl (.sockets (.remove _))), found =>
      match found with
      | some e => some (raw e)
      | none => hand
    | .inr (.inl (.sockets (.insert _))), _ => none
    | .inr (.inr c), answer =>
      match H.closed c with
      | some _ => none
      | none => (H.made c answer).or hand
    | _, _ => hand

variable [DecidableEq R]

/-- What the host has given out and not taken back is in the table, each under one guest fd, or in hand. Every close so far was of a
socket that was open. -/
structure Owned (hand : Option R) (t : FdTable socketFdBase E) (k : Ledger R) : Prop where
  open_iff : ∀ r, k.openAs r ≠ none ↔ hand = some r ∨ ∃ fd e, t.find fd = some e ∧ raw e = r
  oneFd : ∀ fd e fd' e', t.find fd = some e → t.find fd' = some e' → raw e = raw e' → fd = fd'
  notStored : ∀ r fd e, hand = some r → t.find fd = some e → raw e ≠ r
  released : none ∉ k.closes

end

namespace Owned

variable {E R : Type} [DecidableEq R] {raw : E → R} {hand : Option R} {t : FdTable socketFdBase E} {k : Ledger R}

/-- At the start there is no socket, and nobody owns one. -/
theorem start : Owned raw none (.empty socketFdBase E) (.empty : Ledger R) where
  open_iff r := by
    constructor
    · intro h
      exact absurd rfl h
    · rintro (h | ⟨fd, e, h, -⟩) <;> cases h
  oneFd _ _ _ _ h := by cases h
  notStored _ _ _ h := by cases h
  released := List.not_mem_nil

/-- The host gives out a socket. -/
theorem obtain (h : Owned raw none t k) {r : R} (hfree : k.openAs r = none) : Owned raw (some r) t (k.obtain r hfree) where
  open_iff x := by
    rw [Ledger.openAs_obtain]
    split
    · rename_i hx
      rw [hx]
      exact iff_of_true (Option.some_ne_none _) (.inl rfl)
    · rename_i hx
      rw [h.open_iff]
      refine or_congr_left ?_
      exact iff_of_false (Option.some_ne_none _).symm fun heq => hx (Option.some.inj heq).symm
  oneFd := h.oneFd
  notStored x fd e hx hfind hraw := by
    cases hx
    exact (h.open_iff r).mpr (.inr ⟨fd, e, hfind, hraw⟩) hfree
  released := h.released

/-- The socket in hand goes back to the host. -/
theorem close {r : R} (h : Owned raw (some r) t k) : Owned raw none t (k.close r) where
  open_iff x := by
    rw [Ledger.openAs_close]
    split
    · rename_i hx
      refine iff_of_false (fun hne => hne rfl) ?_
      rintro (heq | ⟨fd, e, hfind, hraw⟩)
      · cases heq
      · exact h.notStored r fd e rfl hfind (hraw.trans hx)
    · rename_i hx
      rw [h.open_iff]
      refine or_congr_left ?_
      exact iff_of_false (fun heq => hx (Option.some.inj heq).symm) (Option.some_ne_none _).symm
  oneFd := h.oneFd
  notStored _ _ _ hx := by cases hx
  released := by
    rw [Ledger.closes_close, List.mem_append, List.mem_singleton]
    rintro (hmem | hnone)
    · exact h.released hmem
    · exact (h.open_iff r).mpr (.inl rfl) hnone.symm

/-- The socket in hand goes into the table, under a guest fd that is free. -/
theorem insert {e : E} (h : Owned raw (some (raw e)) t k) (hnext : t.find t.next = none) : Owned raw none (t.insert e).2 k where
  open_iff r := by
    rw [h.open_iff]
    constructor
    · rintro (heq | ⟨fd, e', hfind, hraw⟩)
      · exact .inr ⟨t.next, e, if_pos rfl, Option.some.inj heq⟩
      · have hfd : fd ≠ t.next := by
          intro heq
          rw [heq, hnext] at hfind
          cases hfind
        exact .inr ⟨fd, e', (if_neg hfd).trans hfind, hraw⟩
    · rintro (heq | ⟨fd, e', hfind, hraw⟩)
      · cases heq
      · rw [FdTable.find_insert] at hfind
        split at hfind
        · cases hfind
          exact .inl (congrArg some hraw)
        · exact .inr ⟨fd, e', hfind, hraw⟩
  oneFd fd e₁ fd' e₂ hfind hfind' hraw := by
    rw [FdTable.find_insert] at hfind hfind'
    split at hfind
    · rename_i hfd
      cases hfind
      split at hfind'
      · rename_i hfd'
        exact hfd.trans hfd'.symm
      · exact absurd hraw.symm (h.notStored _ fd' e₂ rfl hfind')
    · split at hfind'
      · cases hfind'
        exact absurd hraw (h.notStored _ fd e₁ rfl hfind)
      · exact h.oneFd fd e₁ fd' e₂ hfind hfind' hraw
  notStored _ _ _ hx := by cases hx
  released := h.released

/-- A socket is taken out of the table. -/
theorem remove (h : Owned raw none t k) {fd : Int32} {e : E} (hfound : t.find fd = some e) :
    Owned raw (some (raw e)) (t.remove fd) k where
  open_iff r := by
    rw [h.open_iff]
    constructor
    · rintro (heq | ⟨fd', e', hfind, hraw⟩)
      · cases heq
      · by_cases hfd : fd' = fd
        · rw [hfd, hfound] at hfind
          cases hfind
          exact .inl (congrArg some hraw)
        · exact .inr ⟨fd', e', (if_neg hfd).trans hfind, hraw⟩
    · rintro (heq | ⟨fd', e', hfind, hraw⟩)
      · exact .inr ⟨fd, e, hfound, Option.some.inj heq⟩
      · rw [FdTable.find_remove] at hfind
        split at hfind
        · cases hfind
        · exact .inr ⟨fd', e', hfind, hraw⟩
  oneFd fd₁ e₁ fd₂ e₂ hfind hfind' hraw := by
    rw [FdTable.find_remove] at hfind hfind'
    split at hfind
    · cases hfind
    · split at hfind'
      · cases hfind'
      · exact h.oneFd fd₁ e₁ fd₂ e₂ hfind hfind' hraw
  notStored r fd' e' hr hfind hraw := by
    rw [FdTable.find_remove] at hfind
    split at hfind
    · cases hfind
    · rename_i hfd
      exact hfd (h.oneFd fd' e' fd e hfind hfound (hraw.trans (Option.some.inj hr).symm))
  released := h.released

/-- A change that leaves the host sockets of the table alone. -/
theorem of_find_raw (h : Owned raw hand t k) {t' : FdTable socketFdBase E}
    (ht : ∀ fd, (t'.find fd).map raw = (t.find fd).map raw) : Owned raw hand t' k := by
  have hfind {fd : Int32} {e : E} (he : t'.find fd = some e) : ∃ e', t.find fd = some e' ∧ raw e' = raw e := by
    have heq := ht fd
    rw [he] at heq
    exact Option.map_eq_some_iff.mp heq.symm
  have hfind' {fd : Int32} {e : E} (he : t.find fd = some e) : ∃ e', t'.find fd = some e' ∧ raw e' = raw e := by
    have heq := ht fd
    rw [he] at heq
    exact Option.map_eq_some_iff.mp heq
  refine ⟨fun r => (h.open_iff r).trans (or_congr_right ?_), ?_, ?_, h.released⟩
  · constructor
    · rintro ⟨fd, e, he, hraw⟩
      obtain ⟨e', he', hraw'⟩ := hfind' he
      exact ⟨fd, e', he', hraw'.trans hraw⟩
    · rintro ⟨fd, e, he, hraw⟩
      obtain ⟨e', he', hraw'⟩ := hfind he
      exact ⟨fd, e', he', hraw'.trans hraw⟩
  · intro fd₁ e₁ fd₂ e₂ he₁ he₂ hraw
    obtain ⟨e₁', he₁', hraw₁⟩ := hfind he₁
    obtain ⟨e₂', he₂', hraw₂⟩ := hfind he₂
    exact h.oneFd fd₁ e₁' fd₂ e₂' he₁' he₂' (hraw₁.trans (hraw.trans hraw₂.symm))
  · intro r fd e hr he hraw
    obtain ⟨e', he', hraw'⟩ := hfind he
    exact h.notStored r fd e' hr he' (hraw'.trans hraw)

end Owned

/-! ## Steps and calls -/

section
variable {E U R γ : Type} {Net : Sig} [DecidableEq R]

/-- The counter of the table has stopped, or everything is owned. -/
def Kept (raw : E → R) (hand : Option R) (s : γ × (AppState E × Ledger R)) : Prop :=
  s.2.1.sockets.next = Int32.maxValue ∨ Owned raw hand s.2.1.sockets s.2.2

variable {raw : E → R} {H : Handles Net R} {G : Machine GuestMem γ} {apply : U → E → E}

section
variable {hand : Option R} {g g' : γ} {a : AppState E} {k k' : Ledger R}

/-- A command of the table: an insert takes what is in hand, a remove puts it there. -/
theorem Kept.table (happly : ∀ u e, raw (apply u e) = raw e) {c : AppState.Cmd E U} (h : Kept raw hand (g, a, k))
    (hallows : (owning raw H).allows hand (.inr (.inl c))) :
    Kept raw ((owning raw H).next hand (.inr (.inl c)) (a.handle apply c).1) (g', (a.handle apply c).2, k) := by
  rcases c with _ | (e | fd | fd | ⟨fd, u⟩)
  · exact h
  · by_cases hfull : a.sockets.next = Int32.maxValue
    · refine .inl ?_
      show satSucc a.sockets.next = _
      rw [satSucc, if_pos hfull]
      exact hfull
    · cases (show hand = some (raw e) from hallows)
      have howned := h.resolve_left hfull
      exact .inr (howned.insert (a.sockets.find_next_eq_none_iff.mpr (.inl (lt_maxValue_of_ne hfull))))
  · exact h
  · cases (show hand = none from hallows)
    refine h.imp_right fun howned => ?_
    show Owned raw ((owning raw H).next none (.inr (.inl (.sockets (.remove fd)))) (a.sockets.find fd)) (a.sockets.remove fd) k
    cases hfind : a.sockets.find fd with
    | none =>
      rw [FdTable.remove_of_find_none hfind]
      exact howned
    | some e => exact howned.remove hfind
  · refine h.imp_right fun howned => howned.of_find_raw fun fd' => ?_
    show ((a.sockets.modify fd (apply u)).find fd').map raw = _
    rw [FdTable.find_modify]
    split
    · rw [Option.map_map]
      exact congrArg (fun f => (a.sockets.find fd').map f) (funext fun e => happly u e)
    · rfl

/-- A call of the host: it closes what is in hand, or puts there what it makes. -/
theorem Kept.hostCall {c : Net.Cmd} {r : Net.Resp c} (h : Kept raw hand (g, a, k))
    (hallows : (owning (U := U) raw H).allows hand (.inr (.inr c))) (hhost : H.machine k c r k') :
    Kept raw ((owning (U := U) raw H).next hand (.inr (.inr c)) r) (g', a, k') := by
  refine h.imp_right fun howned => ?_
  simp only [owning]
  unfold Handles.machine at hhost
  cases hclosed : H.closed c with
  | some x =>
    rw [hclosed] at hhost
    cases (show k' = k.close x from hhost)
    cases hallows.1 x hclosed
    exact howned.close
  | none =>
    rw [hclosed] at hhost
    cases hmade : H.made c r with
    | none =>
      simp only [hmade] at hhost
      cases hhost
      exact howned
    | some x =>
      simp only [hmade] at hhost
      obtain ⟨hfree, hk⟩ := hhost
      cases hk
      cases hallows.2 r x hmade
      exact howned.obtain hfree

end

/-- A step of an import that allows it keeps everything owned. -/
theorem Kept.step (happly : ∀ u e, raw (apply u e) = raw e) {hand : Option R} {s s' : γ × (AppState E × Ledger R)}
    {c : (GuestMem.sum (SocketSig E U Net)).Cmd} {r : (GuestMem.sum (SocketSig E U Net)).Resp c} (h : Kept raw hand s)
    (hallows : (owning raw H).allows hand c) (hm : socketMachine G apply H.machine s c r s') :
    Kept raw ((owning raw H).next hand c r) s' := by
  obtain ⟨g, a, k⟩ := s
  obtain ⟨g', a', k'⟩ := s'
  rcases c with c | c | c
  · cases hm.2
    exact h
  · obtain ⟨⟨hdet, hk⟩, -⟩ := hm
    obtain ⟨hr, ha⟩ := Machine.eq_of_det (S := AppState.Sig E U) hdet
    cases (show k' = k from hk)
    cases (show a' = (a.handle apply c).2 from ha)
    cases (show r = (a.handle apply c).1 from hr)
    exact h.table happly hallows
  · obtain ⟨⟨hhost, ha⟩, -⟩ := hm
    cases (show a' = a from ha)
    exact h.hostCall hallows hhost

/-- A call that returns with nothing in hand keeps everything owned. -/
theorem Kept.call (happly : ∀ u e, raw (apply u e) = raw e) {p : Prog (GuestMem.sum (SocketSig E U Net)) Int32}
    (hp : p.Obeys (owning raw H) (fun _ hand => hand = none) none) {s s' : γ × (AppState E × Ledger R)}
    {tr : List (Event (GuestMem.sum (SocketSig E U Net)))} {v : Int32}
    (hrun : Runs (socketMachine G apply H.machine) p s tr (.returned v) s') (h : Kept raw none s) : Kept raw none s' := by
  obtain ⟨hkept, hreturned⟩ := hp.simulates (R := Kept raw)
    (fun _ _ _ _ _ hkept hallows hm => ⟨trivial, hkept.step happly hallows hm⟩) hrun h
  rw [hreturned v rfl] at hkept
  exact hkept

end

/-! ## The imports on Unix -/

namespace Unix

/-- The sockets that libc makes and closes. -/
def handles : Handles Net Int32 where
  made := madeBy
  closed
    | .close raw => some raw
    | _ => none

/-- The number an import owns. -/
def Phase.hand : Phase → Option Int32
  | .copied _ => none
  | .made raw => some raw
  | .taken raw => some raw
  | .done => none

/-- Every import has at most one socket in hand, and none when it returns. -/
theorem owning_prog (lc : Libc) (c : SocketImport) :
    (prog lc c).Obeys (owning HostSocket.rawFd handles) (fun _ hand => hand = none) none := by
  have hsettled : (prog lc c).Obeys numbers (fun _ f => f.hand = none) (.copied []) := by
    refine (NumbersAux.tidy_prog lc c).mono fun _ f hf => ?_
    cases f with
    | copied => rfl
    | made => exact hf.elim
    | taken => exact hf.elim
    | done => rfl
  refine Prog.Obeys.image (f := .copied []) Phase.hand (fun _ _ _ => trivial) ?_ ?_ hsettled
  · rintro f (c | (_ | (e | fd | fd | ⟨fd, u⟩)) | c) hallows
    · trivial
    · trivial
    · cases hallows
      rfl
    · trivial
    · cases hallows
      rfl
    · trivial
    · cases c with
      | socket =>
        cases hallows
        exact ⟨nofun, fun _ _ _ => rfl⟩
      | accept =>
        cases hallows
        exact ⟨nofun, fun _ _ _ => rfl⟩
      | close raw =>
        refine ⟨?_, nofun⟩
        intro r hr
        cases hr
        rcases hallows with rfl | rfl <;> rfl
      | _ => exact ⟨nofun, nofun⟩
  · rintro f (c | (_ | (e | fd | fd | ⟨fd, u⟩)) | c) r hallows
    · rfl
    · rfl
    · rfl
    · obtain ⟨raws, rfl⟩ := hallows
      cases r <;> rfl
    · cases hallows
      cases r <;> rfl
    · exact u.elim
    · cases c with
      | socket domain ty protocol =>
        cases hallows
        cases hmade : madeBy (.socket domain ty protocol) r <;> simp [owning, handles, numbers, hmade, Phase.hand]
      | accept raw addrLen =>
        cases hallows
        cases hmade : madeBy (.accept raw addrLen) r <;> simp [owning, handles, numbers, hmade, Phase.hand]
      | _ => rfl

end Unix

/-! ## The imports on Windows -/

namespace Windows

/-- The sockets that WinSock makes and closes. -/
def handles : Handles Net Socket where
  made
    | .socket .., rawSocket => if rawSocket = invalidSocket then none else some rawSocket
    | .accept .., answer => if answer.accepted = invalidSocket then none else some answer.accepted
    | _, _ => none
  closed
    | .closesocket rawSocket => some rawSocket
    | _ => none

namespace OwnershipAux

/-- A command that leaves the owners of sockets as they are. -/
def Plain : Sockets.Cmd → Prop
  | .inr (.inl (.sockets (.insert _))) => False
  | .inr (.inl (.sockets (.remove _))) => False
  | .inr (.inr (.socket ..)) => False
  | .inr (.inr (.accept ..)) => False
  | .inr (.inr (.closesocket _)) => False
  | _ => True

/-- A program of plain commands leaves the hand as it is. -/
theorem owning_of_plain {α : Type} {p : Import α} (hp : p.Only Plain) {hand : Option Socket} {Q : α → Option Socket → Prop}
    (hQ : ∀ a, Q a hand) : p.Obeys (owning HostSocket.rawSocket handles) Q hand := by
  refine hp.obeys_same ?_ hQ
  rintro (c | (_ | (e | fd | fd | ⟨fd, u⟩)) | c) hplain
  · exact ⟨trivial, fun _ => rfl⟩
  · exact ⟨trivial, fun _ => rfl⟩
  · exact hplain.elim
  · exact ⟨trivial, fun _ => rfl⟩
  · exact hplain.elim
  · exact ⟨trivial, fun _ => rfl⟩
  · cases c <;> first | exact hplain.elim | exact ⟨⟨nofun, nofun⟩, fun _ => rfl⟩

/-- A plain command that also leaves the modes of sockets and the flags in the table as they are. -/
def Calm : Sockets.Cmd → Prop
  | .inr (.inl (.sockets (.modify ..))) => False
  | .inr (.inr (.ioctlsocketFionbio ..)) => False
  | c => Plain c

/-- What is calm is plain. -/
theorem Calm.plain {c : Sockets.Cmd} (h : Calm c) : Plain c := by
  unfold Calm at h
  split at h
  · exact h.elim
  · exact h.elim
  · exact h

/-- A program of calm commands leaves the hand as it is. -/
theorem owning_of_calm {α : Type} {p : Import α} (hp : p.Only Calm) {hand : Option Socket} {Q : α → Option Socket → Prop}
    (hQ : ∀ a, Q a hand) : p.Obeys (owning HostSocket.rawSocket handles) Q hand :=
  owning_of_plain (hp.mono fun _ => Calm.plain) hQ

/-! ### Calm parts -/

/-- A command on guest memory, or one that asks for the network, for WinSock or for the last error. -/
def Still : Sockets.Cmd → Prop
  | .inl _ => True
  | .inr (.inl .networkAllowed) => True
  | .inr (.inr .wsaStartup) => True
  | .inr (.inr .wsaGetLastError) => True
  | _ => False

/-- What is still is calm. -/
theorem calm_of_still {α : Type} {p : Import α} (hp : p.Only Still) : p.Only Calm := by
  refine hp.mono ?_
  rintro (c | (_ | (e | fd | fd | ⟨fd, u⟩)) | c) hstill
  · trivial
  · trivial
  · exact hstill.elim
  · exact hstill.elim
  · exact hstill.elim
  · exact hstill.elim
  · cases c <;> first | exact hstill.elim | trivial

/-- A lookup is calm. -/
theorem calm_get (fd : Int32) : (get fd).Only Calm := .step trivial fun _ => trivial

/-- Reading guest memory is still, ... -/
theorem still_readGuest (ptr len : Int32) : (readGuest ptr len : Import _).Only Still := .step trivial fun _ => trivial

/-- ... writing it, ... -/
theorem still_writeGuest (ptr : Int32) (bytes : List UInt8) : (writeGuest ptr bytes : Import _).Only Still :=
  .step trivial fun _ => trivial

/-- ... a word of it, ... -/
theorem still_writeU32 (ptr : Int32) (value : UInt32) : (writeU32 ptr value : Import _).Only Still := still_writeGuest _ _

/-- ... slicing, ... -/
theorem still_sliceTo (bytes : List UInt8) (n : Nat) : (sliceTo bytes n : Import _).Only Still := by
  unfold sliceTo
  split <;> trivial

/-- ... reading the length of an address, ... -/
theorem still_readSockaddrLen (ptr : Int32) : (readSockaddrLen ptr).Only Still := by
  have hread : (readU32 ptr : Import _).Only Still :=
    (still_readGuest ptr 4).attempt (fun _ => trivial) fun _ => trivial
  exact hread.attempt (fun _ => trivial) fun _ => trivial

/-- ... asking for an error, ... -/
theorem still_negLastSocketErrno : negLastSocketErrno.Only Still := .step trivial fun _ => trivial

/-- ... also in `cvt_socket_i32`, ... -/
theorem still_cvtSocketI32 (rc : Int32) : (cvtSocketI32 rc).Only Still := by
  unfold cvtSocketI32
  split
  · exact still_negLastSocketErrno
  · trivial

/-- ... and the start of WinSock. -/
theorem still_ensureWinsock : ensureWinsock.Only Still := by
  refine .step trivial fun rc => ?_
  split <;> trivial

/-- The end of the imports that write a result and its length. -/
theorem still_writes (ptr lenPtr : Int32) (bytes : List UInt8) (len : UInt32) (rc : Int32) : (do
    match ← writeGuest ptr bytes with
    | .error errno => return negErrno errno
    | .ok () =>
      match ← writeU32 lenPtr len with
      | .ok () => return rc
      | .error errno => return negErrno errno : Import Int32).Only Still :=
  (still_writeGuest ptr bytes).attempt (fun _ => trivial) fun _ =>
    (still_writeU32 lenPtr len).attempt (fun _ => trivial) fun _ => trivial

/-! ### Calm imports -/

/-- `bind` is calm. -/
theorem calm_bind (fd addrPtr addrLen : Int32) : (Windows.bind fd addrPtr addrLen).Only Calm := by
  refine (calm_get fd).attempt (fun _ => trivial) fun socket => ?_
  refine (calm_of_still (still_readGuest addrPtr addrLen)).attempt (fun _ => trivial) fun addr => ?_
  exact .step trivial fun rc => calm_of_still (still_cvtSocketI32 rc)

/-- `listen` is calm. -/
theorem calm_listen (fd backlog : Int32) : (Windows.listen fd backlog).Only Calm := by
  refine (calm_get fd).attempt (fun _ => trivial) fun socket => ?_
  exact .step trivial fun rc => calm_of_still (still_cvtSocketI32 rc)

/-- `connect` is calm. -/
theorem calm_connect (fd addrPtr addrLen : Int32) : (Windows.connect fd addrPtr addrLen).Only Calm := by
  refine (calm_get fd).attempt (fun _ => trivial) fun socket => ?_
  refine (calm_of_still (still_readGuest addrPtr addrLen)).attempt (fun _ => trivial) fun addr => ?_
  exact .step trivial fun rc => calm_of_still (still_cvtSocketI32 rc)

/-- `setsockopt` is calm. -/
theorem calm_setsockopt (fd level optname optvalPtr optlen : Int32) :
    (Windows.setsockopt fd level optname optvalPtr optlen).Only Calm := by
  refine (calm_get fd).attempt (fun _ => trivial) fun socket => ?_
  refine (calm_of_still (still_readGuest optvalPtr optlen)).attempt (fun _ => trivial) fun optval => ?_
  exact .step trivial fun rc => calm_of_still (still_cvtSocketI32 rc)

/-- `send` is calm. -/
theorem calm_send (fd bufPtr len flags : Int32) : (Windows.send fd bufPtr len flags).Only Calm := by
  refine (calm_get fd).attempt (fun _ => trivial) fun socket => ?_
  refine (calm_of_still (still_readGuest bufPtr len)).attempt (fun _ => trivial) fun buf => ?_
  exact .step trivial fun rc => calm_of_still (still_cvtSocketI32 rc)

/-- `sendto` is calm. -/
theorem calm_sendto (fd bufPtr len flags addrPtr addrLen : Int32) :
    (Windows.sendto fd bufPtr len flags addrPtr addrLen).Only Calm := by
  refine (calm_get fd).attempt (fun _ => trivial) fun socket => ?_
  refine (calm_of_still (still_readGuest bufPtr len)).attempt (fun _ => trivial) fun buf => ?_
  refine (calm_of_still (still_readGuest addrPtr addrLen)).attempt (fun _ => trivial) fun addr => ?_
  exact .step trivial fun rc => calm_of_still (still_cvtSocketI32 rc)

/-- `shutdown` is calm. -/
theorem calm_shutdown (fd how : Int32) : (Windows.shutdown fd how).Only Calm := by
  refine (calm_get fd).attempt (fun _ => trivial) fun socket => ?_
  exact .step trivial fun rc => calm_of_still (still_cvtSocketI32 rc)

/-- `getsockname` and `getpeername` are calm. -/
theorem calm_socketName (fd addrPtr addrLenPtr : Int32) (kind : NameKind) :
    (Windows.socketName fd addrPtr addrLenPtr kind).Only Calm := by
  refine (calm_get fd).attempt (fun _ => trivial) fun socket => ?_
  refine (calm_of_still (still_readSockaddrLen addrLenPtr)).attempt (fun _ => trivial) fun requestedLen => ?_
  refine .step trivial fun _ => ?_
  have hname (raw : Socket) (len : Int32) : (callName kind raw len).Only Calm := by
    cases kind <;> exact .step trivial fun _ => trivial
  refine (hname _ _).bind fun answer => ?_
  refine .ite (calm_of_still still_negLastSocketErrno) (.ite trivial ?_)
  exact (calm_of_still (still_sliceTo _ _)).bind fun _ => calm_of_still (still_writes _ _ _ _ _)

/-- `getsockopt` is calm. -/
theorem calm_getsockopt (fd level optname optvalPtr optlenPtr : Int32) :
    (Windows.getsockopt fd level optname optvalPtr optlenPtr).Only Calm := by
  refine (calm_get fd).attempt (fun _ => trivial) fun socket => ?_
  refine (calm_of_still (still_readSockaddrLen optlenPtr)).attempt (fun _ => trivial) fun requestedLen => ?_
  refine .step trivial fun _ => ?_
  refine .step trivial fun answer => ?_
  refine .ite (calm_of_still still_negLastSocketErrno) (.ite trivial ?_)
  exact (calm_of_still (still_sliceTo _ _)).bind fun _ => calm_of_still (still_writes _ _ _ _ _)

/-- `recv` is calm. -/
theorem calm_recv (fd bufPtr len flags : Int32) : (Windows.recv fd bufPtr len flags).Only Calm := by
  refine (calm_get fd).attempt (fun _ => trivial) fun socket => ?_
  simp only [Prog.pure_eq, Prog.ret_bind]
  cases checkedLen len with
  | error errno => trivial
  | ok len =>
    refine .step trivial fun _ => ?_
    refine .step trivial fun answer => ?_
    split
    · exact calm_of_still still_negLastSocketErrno
    · refine (calm_of_still (still_sliceTo _ _)).bind fun received => ?_
      exact (calm_of_still (still_writeGuest _ _)).attempt (fun _ => trivial) fun _ => trivial

/-- `recvfrom` is calm. -/
theorem calm_recvfrom (fd bufPtr len flags addrPtr addrLenPtr : Int32) :
    (Windows.recvfrom fd bufPtr len flags addrPtr addrLenPtr).Only Calm := by
  refine (calm_get fd).attempt (fun _ => trivial) fun socket => ?_
  simp only [Prog.pure_eq, Prog.ret_bind]
  cases checkedLen len with
  | error errno => trivial
  | ok len =>
    refine (calm_of_still (still_readSockaddrLen addrLenPtr)).attempt (fun _ => trivial) fun requestedAddrLen => ?_
    refine .step trivial fun _ => ?_
    refine .step trivial fun _ => ?_
    refine .step trivial fun answer => ?_
    refine .ite (calm_of_still still_negLastSocketErrno) (.ite trivial ?_)
    refine (calm_of_still (still_sliceTo _ _)).bind fun received => ?_
    refine (calm_of_still (still_writeGuest _ _)).attempt (fun _ => trivial) fun _ => ?_
    exact (calm_of_still (still_sliceTo _ _)).bind fun _ => calm_of_still (still_writes _ _ _ _ _)

/-- `fcntl` changes the mode of a socket and its flags, and is plain. -/
theorem plain_fcntl (fd cmd arg : Int32) : (Windows.fcntl fd cmd arg).Only Plain := by
  refine ((calm_get fd).mono fun _ => Calm.plain).attempt (fun _ => trivial) fun socket => ?_
  simp only [Prog.pure_eq, Prog.ret_bind]
  split
  · trivial
  · split
    · refine .step trivial fun rc => ?_
      split
      · exact (calm_of_still still_negLastSocketErrno).mono fun _ => Calm.plain
      · have hset : (setStatusFlags fd (arg &&& wasiONonblock)).Only Plain := .step trivial fun _ => trivial
        exact hset.attempt (fun _ => trivial) fun _ => trivial
    · trivial

/-- The first loop of `poll` is calm, ... -/
theorem calm_hostPollFds (chunks : List (List UInt8)) : (hostPollFds chunks).Only Calm := by
  induction chunks with
  | nil => trivial
  | cons chunk chunks ih =>
    have hrest (entry : Bool × WsaPollFd) : (pushEntry entry (hostPollFds chunks)).Only Calm :=
      ih.attempt (fun _ => trivial) fun _ => trivial
    unfold hostPollFds
    by_cases hneg : (guestPollFd chunk).1 < 0
    · simp only [hneg, if_true, Prog.pure_eq, Prog.ret_bind]
      exact hrest (true, ⟨invalidSocket, 0⟩)
    · simp only [hneg, if_false]
      exact (calm_get _).attempt (fun _ => trivial) fun socket =>
        hrest (false, ⟨socket.rawSocket, guestPollEventsToWindows (guestPollFd chunk).2⟩)

/-- ... the second one, ... -/
theorem calm_writeRevents (fdsPtr : Int32) (revents : List UInt16) (index : Nat) :
    (writeRevents fdsPtr index revents : Import _).Only Calm := by
  induction revents generalizing index with
  | nil => trivial
  | cons revent revents ih => exact (calm_of_still (still_writeGuest _ _)).attempt (fun _ => trivial) fun _ => ih _

/-- ... and `poll`. -/
theorem calm_poll (fdsPtr nfds timeout : Int32) : (Windows.poll fdsPtr nfds timeout).Only Calm := by
  unfold Windows.poll
  simp only [Prog.pure_eq, Prog.ret_bind]
  cases checkedPollCount nfds with
  | error errno => trivial
  | ok nfds =>
    refine (calm_of_still (still_readGuest _ _)).attempt (fun _ => trivial) fun bytes => ?_
    refine (calm_hostPollFds _).attempt (fun _ => trivial) fun entries => ?_
    refine .step trivial fun answer => ?_
    split
    · exact calm_of_still still_negLastSocketErrno
    · exact (calm_writeRevents _ _ _).attempt (fun _ => trivial) fun _ => trivial

/-! ### The imports that make and close sockets -/

/-- The import obeys the discipline and returns with nothing in hand. -/
def Owning (p : Import Int32) (hand : Option Socket) : Prop :=
  p.Obeys (owning HostSocket.rawSocket handles) (fun _ hand => hand = none) hand

/-- An import that gives its socket back, and goes on with nothing in hand. -/
theorem owning_closesocket {raw : Socket} {k : Int32 → Import Int32} (hk : ∀ rc, (k rc).Only Calm) :
    Owning (ws (.closesocket raw) >>= k) (some raw) := by
  refine Prog.obeys_bind.mpr ⟨⟨?_, nofun⟩, fun rc _ => owning_of_calm (hk rc) fun _ => rfl⟩
  intro r hr
  exact hr

/-- What is inserted goes from the hand to the table. -/
theorem owning_insert {raw : Socket} {guestDomain hostDomain statusFlags : Int32} :
    Owning (insert raw guestDomain hostDomain statusFlags) (some raw) := ⟨rfl, fun _ _ => rfl⟩

/-- `socket` inserts the socket that it makes, or closes it. -/
theorem owning_socket (domain ty protocol : Int32) : Owning (Windows.socket domain ty protocol) none := by
  refine Prog.obeys_bind.mpr ⟨trivial, fun allowed _ => ?_⟩
  show Owning (if !allowed then _ else _) none
  split
  · exact rfl
  · refine Prog.obeys_bind.mpr (owning_of_calm (calm_of_still still_ensureWinsock) ?_)
    rintro (errno | _)
    · exact rfl
    · simp only
      cases normalizeSocketType ty with
      | error errno => exact rfl
      | ok socketType =>
        simp only [Prog.pure_eq, Prog.ret_bind]
        refine Prog.obeys_bind.mpr ⟨⟨nofun, fun _ _ _ => rfl⟩, fun (raw : Socket) _ => ?_⟩
        show Owning (if raw = invalidSocket then _ else _) ((if raw = invalidSocket then none else some raw).or none)
        by_cases hraw : raw = invalidSocket
        · rw [if_pos hraw, if_pos hraw]
          exact owning_of_calm (calm_of_still still_negLastSocketErrno) fun _ => rfl
        · rw [if_neg hraw, if_neg hraw]
          show Owning _ (some raw)
          split
          · refine Prog.obeys_bind.mpr ⟨⟨nofun, nofun⟩, fun (rc : Int32) _ => ?_⟩
            show Owning (if rc = socketError then _ else _) (some raw)
            split
            · exact owning_closesocket fun _ => calm_of_still still_negLastSocketErrno
            · exact owning_insert
          · exact owning_insert

/-- `accept` inserts the socket that it makes, or closes it. -/
theorem owning_accept (fd addrPtr addrLenPtr : Int32) : Owning (Windows.accept fd addrPtr addrLenPtr) none := by
  refine Prog.obeys_bind.mpr (owning_of_calm (calm_get fd) ?_)
  rintro (errno | socket)
  · exact rfl
  · simp only [Prog.pure_eq, Prog.ret_bind]
    refine Prog.obeys_bind.mpr (owning_of_calm (calm_of_still (still_readSockaddrLen addrLenPtr)) ?_)
    rintro (errno | requestedLen)
    · exact rfl
    · refine Prog.obeys_bind.mpr ⟨trivial, fun _ _ => ?_⟩
      refine Prog.obeys_bind.mpr ⟨⟨nofun, fun _ _ _ => rfl⟩, fun (answer : AcceptAnswer) _ => ?_⟩
      show Owning (if answer.accepted = invalidSocket then _ else _)
        ((if answer.accepted = invalidSocket then none else some answer.accepted).or none)
      by_cases hraw : answer.accepted = invalidSocket
      · rw [if_pos hraw, if_pos hraw]
        exact owning_of_calm (calm_of_still still_negLastSocketErrno) fun _ => rfl
      · rw [if_neg hraw, if_neg hraw]
        show Owning _ (some answer.accepted)
        split
        · exact owning_closesocket fun _ => trivial
        · refine Prog.obeys_bind.mpr (owning_of_calm (calm_of_still (still_sliceTo _ _)) fun reported => ?_)
          refine Prog.obeys_bind.mpr (owning_of_calm (calm_of_still (still_writeGuest _ _)) ?_)
          rintro (errno | _)
          · exact owning_closesocket fun _ => trivial
          · refine Prog.obeys_bind.mpr (owning_of_calm (calm_of_still (still_writeU32 _ _)) ?_)
            rintro (errno | _)
            · exact owning_closesocket fun _ => trivial
            · exact owning_insert

/-- `close` takes the socket out of the table and closes it. -/
theorem owning_close (fd : Int32) : Owning (Windows.close fd) none := by
  refine Prog.obeys_bind.mpr ⟨rfl, ?_⟩
  rintro (_ | socket) _
  · exact rfl
  · exact owning_closesocket fun rc => calm_of_still (still_cvtSocketI32 rc)

end OwnershipAux

open OwnershipAux in
/-- Every import has at most one socket in hand, and none when it returns. -/
theorem owning_prog (c : SocketImport) :
    (prog c).Obeys (owning HostSocket.rawSocket handles) (fun _ hand => hand = none) none := by
  cases c with
  | socket => exact owning_socket _ _ _
  | bind => exact owning_of_calm (calm_bind _ _ _) fun _ => rfl
  | listen => exact owning_of_calm (calm_listen _ _) fun _ => rfl
  | accept => exact owning_accept _ _ _
  | connect => exact owning_of_calm (calm_connect _ _ _) fun _ => rfl
  | getsockname => exact owning_of_calm (calm_socketName _ _ _ _) fun _ => rfl
  | getpeername => exact owning_of_calm (calm_socketName _ _ _ _) fun _ => rfl
  | setsockopt => exact owning_of_calm (calm_setsockopt _ _ _ _ _) fun _ => rfl
  | getsockopt => exact owning_of_calm (calm_getsockopt _ _ _ _ _) fun _ => rfl
  | send => exact owning_of_calm (calm_send _ _ _ _) fun _ => rfl
  | recv => exact owning_of_calm (calm_recv _ _ _ _) fun _ => rfl
  | sendto => exact owning_of_calm (calm_sendto _ _ _ _ _ _) fun _ => rfl
  | recvfrom => exact owning_of_calm (calm_recvfrom _ _ _ _ _ _) fun _ => rfl
  | shutdown => exact owning_of_calm (calm_shutdown _ _) fun _ => rfl
  | close => exact owning_close _
  | fcntl => exact owning_of_plain (plain_fcntl _ _ _) fun _ => rfl
  | poll => exact owning_of_calm (calm_poll _ _ _) fun _ => rfl

end Windows

end WasmtimeMysql
