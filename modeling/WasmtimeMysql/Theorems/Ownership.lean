import WasmtimeMysql.Lemmas.Ownership
import WasmtimeMysql.Lib.Session

/-!
# No host socket is lost or closed twice

A guest makes one socket call after another, and the host may fail any of them at any step. As long as every call returns and the counter
of guest fds has not stopped, the sockets that the host gave out and that were not closed are the sockets of the table after every call,
each under one guest fd, and dropping the table closes what is left (`sockets_owned`).

The host is a ledger: it gives out only numbers that are not open, and a close gives the number back whatever it returns. Guest memory may
be any machine.
-/

namespace WasmtimeMysql

open Effects

section
variable {E R : Type} {Net : Sig} [DecidableEq R]

/-- The sockets obtained and not closed are those of the table, each under one guest fd. Every close so far closed a socket that was open,
and no socket was closed twice. -/
structure Accounted (raw : E → R) (t : FdTable socketFdBase E) (k : Ledger R) : Prop where
  stored : ∀ r i, k.IsOpen r i → ∃! fd, ∃ e, t.find fd = some e ∧ raw e = r
  live : ∀ fd e, t.find fd = some e → ∃ i, k.IsOpen (raw e) i
  released : none ∉ k.closes
  once : ∀ i, k.closes.count (some i) ≤ 1

/-- Every socket that was obtained has been closed, once, and nothing else has been. -/
structure AllClosed (k : Ledger R) : Prop where
  once : ∀ i < k.numbers.length, k.closes.count (some i) = 1
  released : none ∉ k.closes

/-- Dropping the table, in whatever order it is drained, ends with all sockets closed. -/
structure DropCloses (H : Handles Net R) (dropSockets : List (Int32 × E) → Prog Net Unit) (t : FdTable socketFdBase E) (k : Ledger R) :
    Prop where
  drains : ∃ entries, t.Drains entries
  returns : ∀ entries, t.Drains entries → ∃ tr k', Runs H.machine (dropSockets entries) k tr (.returned ()) k'
  allClosed : ∀ entries, t.Drains entries → ∀ tr o k', Runs H.machine (dropSockets entries) k tr o k' →
    o = .returned () ∧ k'.numbers = k.numbers ∧ AllClosed k'

end

namespace OwnershipAux

section
variable {E U R γ : Type} {Net : Sig} [DecidableEq R] {raw : E → R} {H : Handles Net R} {t : FdTable socketFdBase E} {k : Ledger R}

theorem accounted (h : Owned raw none t k) : Accounted raw t k where
  stored r i hopen := by
    have hne : k.openAs r ≠ none := by
      rw [Ledger.openAs_eq_some_iff.mpr hopen]
      intro h
      cases h
    rcases (h.open_iff r).mp hne with heq | ⟨fd, e, hfind, hraw⟩
    · cases heq
    · refine ⟨fd, ⟨e, hfind, hraw⟩, ?_⟩
      rintro fd' ⟨e', hfind', hraw'⟩
      exact h.oneFd fd' e' fd e hfind' hfind (hraw'.trans hraw.symm)
  live fd e hfind := by
    have hne := (h.open_iff (raw e)).mpr (.inr ⟨fd, e, hfind, rfl⟩)
    obtain ⟨i, hi⟩ := Option.ne_none_iff_exists'.mp hne
    exact ⟨i, Ledger.openAs_eq_some_iff.mp hi⟩
  released := h.released
  once := k.once

/-- What the host holds for a table is what draining it lists. -/
theorem holds_of_drains (h : Owned raw none t k) {entries : List (Int32 × E)} (hdrains : t.Drains entries) :
    k.Holds (entries.map fun x => raw x.2) where
  nodup := by
    refine List.Nodup.map_on ?_ (List.Nodup.of_map _ hdrains.1)
    rintro ⟨fd, e⟩ hx ⟨fd', e'⟩ hx' hraw
    have hfind := (hdrains.2 fd e).mp hx
    have hfind' := (hdrains.2 fd' e').mp hx'
    cases h.oneFd fd e fd' e' hfind hfind' hraw
    rw [Option.some.inj (hfind.symm.trans hfind')]
  open_iff r := by
    rw [h.open_iff, List.mem_map]
    constructor
    · rintro (heq | ⟨fd, e, hfind, hraw⟩)
      · cases heq
      · exact ⟨(fd, e), (hdrains.2 fd e).mpr hfind, hraw⟩
    · rintro ⟨⟨fd, e⟩, hmem, hraw⟩
      exact .inr ⟨fd, e, (hdrains.2 fd e).mp hmem, hraw⟩
  released := h.released

theorem dropCloses (h : Owned raw none t k) {drop : List (Int32 × E) → Prog Net Unit} (hnil : drop [] = .ret ())
    (hcons : ∀ x rest, ∃ c, H.closed c = some (raw x.2) ∧ drop (x :: rest) = .call c fun _ => drop rest)
    (hanswer : ∀ c, Nonempty (Net.Resp c)) : DropCloses H drop t k where
  drains := t.exists_drains
  returns entries _ := Handles.exists_runs hnil hcons hanswer entries k
  allClosed entries hdrains tr o k' hrun := by
    obtain ⟨ho, hholds, hnumbers⟩ := (holds_of_drains h hdrains).of_runs hnil hcons hrun
    exact ⟨ho, hnumbers, fun i hi => hholds.count_closes hi, hholds.released⟩

/-- Everything is owned after every call of a session. -/
theorem owned_of_session {G : Machine GuestMem γ} {apply : U → E → E} (happly : ∀ u e, raw (apply u e) = raw e)
    {prog : SocketImport → Prog (GuestMem.sum (SocketSig E U Net)) Int32}
    (hprog : ∀ c, (prog c).Obeys (owning raw H) (fun _ hand => hand = none) none) {g : γ} {allowed : Bool}
    {log : List (Entry Unit SocketImport Int32 (γ × (AppState E × Ledger R)))} {s : γ × (AppState E × Ledger R)}
    (h : Session prog (fun _ => socketMachine G apply H.machine) (g, ⟨allowed, .empty socketFdBase E⟩, .empty) log s)
    (hreturned : ∀ e ∈ log, ∃ v, e.result = .returned v) (hnext : ∀ e ∈ log, e.after.2.1.sockets.next < Int32.maxValue) :
    Owned raw none s.2.1.sockets s.2.2 ∧ ∀ e ∈ log, Owned raw none e.after.2.1.sockets e.after.2.2 := by
  induction h with
  | nil => exact ⟨.start, nofun⟩
  | @snoc log e tr _ hrun ih =>
    obtain ⟨hbefore, hlog⟩ := ih (fun e he => hreturned e (List.mem_append_left _ he)) fun e he => hnext e (List.mem_append_left _ he)
    have hlast : e ∈ log ++ [e] := List.mem_append_right _ List.mem_cons_self
    obtain ⟨v, hv⟩ := hreturned e hlast
    rw [hv] at hrun
    have hafter : Owned raw none e.after.2.1.sockets e.after.2.2 := by
      rcases Kept.call happly (hprog e.call) hrun (.inr hbefore) with hfull | howned
      · have hlt := hnext e hlast
        rw [hfull] at hlt
        exact absurd hlt (Int32.lt_irrefl)
      · exact howned
    refine ⟨hafter, ?_⟩
    intro e' he'
    rcases List.mem_append.mp he' with he' | he'
    · exact hlog e' he'
    · rw [List.mem_singleton.mp he']
      exact hafter

end

theorem unix_dropSockets (x : Int32 × Unix.HostSocket) (rest : List (Int32 × Unix.HostSocket)) :
    ∃ c, Unix.handles.closed c = some x.2.rawFd ∧ Unix.dropSockets (x :: rest) = .call c fun _ => Unix.dropSockets rest :=
  ⟨.close x.2.rawFd, rfl, rfl⟩

theorem windows_dropSockets (x : Int32 × Windows.HostSocket) (rest : List (Int32 × Windows.HostSocket)) :
    ∃ c, Windows.handles.closed c = some x.2.rawSocket ∧
      Windows.dropSockets (x :: rest) = .call c fun _ => Windows.dropSockets rest :=
  ⟨.closesocket x.2.rawSocket, rfl, rfl⟩

theorem unix_answers (c : Unix.Net.Cmd) : Nonempty c.Resp := by
  cases c <;> first | exact ⟨(0 : Int32)⟩ | exact ⟨(0 : Int64)⟩ | exact ⟨none⟩ |
    exact ⟨⟨0, [], 0⟩⟩ | exact ⟨⟨0, []⟩⟩ | exact ⟨⟨0, [], [], 0⟩⟩

theorem windows_answers (c : Windows.Net.Cmd) : Nonempty c.Resp := by
  cases c <;> first | exact ⟨(0 : Int32)⟩ | exact ⟨(0 : UInt64)⟩ | exact ⟨⟨0, [], 0⟩⟩ | exact ⟨⟨0, []⟩⟩ | exact ⟨⟨0, [], [], 0⟩⟩

end OwnershipAux

/-- Host sockets are owned, on both hosts: in every sequence of socket imports in which each call returns and the counter of guest fds is
below its end, whatever the host and guest memory answer. -/
theorem sockets_owned {γ : Type} (G : Machine GuestMem γ) (g : γ) (allowed : Bool) (lc : Libc) :
    (∀ log s, Session (Unix.prog lc) (fun _ : Unit => Unix.machineOver G Unix.handles.machine)
        (g, ⟨allowed, .empty socketFdBase _⟩, .empty) log s →
      (∀ e ∈ log, ∃ v, e.result = .returned v) → (∀ e ∈ log, e.after.2.1.sockets.next < Int32.maxValue) →
      (∀ e ∈ log, Accounted Unix.HostSocket.rawFd e.after.2.1.sockets e.after.2.2) ∧
        DropCloses Unix.handles Unix.dropSockets s.2.1.sockets s.2.2) ∧
    (∀ log s, Session Windows.prog (fun _ : Unit => Windows.machineOver G Windows.handles.machine)
        (g, ⟨allowed, .empty socketFdBase _⟩, .empty) log s →
      (∀ e ∈ log, ∃ v, e.result = .returned v) → (∀ e ∈ log, e.after.2.1.sockets.next < Int32.maxValue) →
      (∀ e ∈ log, Accounted Windows.HostSocket.rawSocket e.after.2.1.sockets e.after.2.2) ∧
        DropCloses Windows.handles Windows.dropSockets s.2.1.sockets s.2.2) := by
  constructor
  · intro log s hsession hreturned hnext
    obtain ⟨hend, hafter⟩ := OwnershipAux.owned_of_session (fun u => u.elim) (Unix.owning_prog lc) hsession hreturned hnext
    refine ⟨fun e he => OwnershipAux.accounted (hafter e he), ?_⟩
    exact OwnershipAux.dropCloses hend rfl OwnershipAux.unix_dropSockets OwnershipAux.unix_answers
  · intro log s hsession hreturned hnext
    have happly (u : Int32) (e : Windows.HostSocket) : (e.setStatusFlags u).rawSocket = e.rawSocket := rfl
    obtain ⟨hend, hafter⟩ := OwnershipAux.owned_of_session happly Windows.owning_prog hsession hreturned hnext
    refine ⟨fun e he => OwnershipAux.accounted (hafter e he), ?_⟩
    exact OwnershipAux.dropCloses hend rfl OwnershipAux.windows_dropSockets OwnershipAux.windows_answers

/-! ## A session -/

namespace OwnershipAux

/-- The state of the Unix module over any guest memory. -/
abbrev UnixState : Type := Unit × (AppState Unix.HostSocket × Ledger Int32)

/-- Nothing yet. -/
def before : UnixState := ((), ⟨true, .empty socketFdBase _⟩, .empty)

/-- The socket 3 was made. -/
def made : UnixState := ((), ⟨true, .empty socketFdBase _⟩, Ledger.empty.obtain 3 rfl)

/-- It is in the table. -/
def listening : UnixState := ((), ⟨true, ((FdTable.empty socketFdBase _).insert ⟨3, 1, 2⟩).2⟩, made.2.2)

/-- A connection, the socket 4, was accepted ... -/
def accepted : UnixState := ((), listening.2.1, made.2.2.obtain 4 (by decide))

/-- ... and closed again. -/
def refused : UnixState := ((), listening.2.1, accepted.2.2.close 4)

/-- The machine of the Unix module over any guest memory. -/
abbrev anyGuest : Machine Unix.Sockets UnixState := Unix.machineOver .any Unix.handles.machine

theorem runs_socket : ∃ tr, Runs anyGuest (Unix.prog linux (.socket 1 6 0)) before tr (.returned 10000) listening := by
  refine ⟨[⟨.inr (.inl .networkAllowed), true⟩, ⟨.inr (.inr (.socket 2 1 0)), (3 : Int32)⟩,
    ⟨.inr (.inl (.sockets (.insert ⟨3, 1, 2⟩))), (10000, none)⟩], ?_⟩
  refine .via before ⟨⟨rfl, rfl⟩, rfl⟩ ?_
  refine .via made ⟨⟨⟨rfl, rfl⟩, rfl⟩, rfl⟩ ?_
  refine .via listening ⟨⟨rfl, rfl⟩, rfl⟩ ?_
  exact .ret _ _

/-- The guest's buffer for the address is out of bounds. -/
theorem runs_accept : ∃ tr, Runs anyGuest (Unix.prog linux (.accept 10000 0 16)) listening tr (.returned (negErrno .efault)) refused := by
  refine ⟨[⟨.inr (.inl (.sockets (.get 10000))), some ⟨3, 1, 2⟩⟩, ⟨.inl (.readGuest 16 4), .ok [16, 0, 0, 0]⟩, ⟨.inl (.alloc 16), ()⟩,
    ⟨.inr (.inr (.accept 3 16)), (⟨4, [], 0⟩ : Unix.BufAnswer)⟩, ⟨.inl (.writeGuest 0 []), .error .efault⟩,
    ⟨.inr (.inr (.close 4)), (0 : Int32)⟩], ?_⟩
  refine .via listening ⟨⟨rfl, rfl⟩, rfl⟩ ?_
  refine .via listening ⟨trivial, rfl⟩ ?_
  refine .via listening ⟨trivial, rfl⟩ ?_
  refine .via accepted ⟨⟨⟨by decide, rfl⟩, rfl⟩, rfl⟩ ?_
  refine .via accepted ⟨trivial, rfl⟩ ?_
  refine .via refused ⟨⟨rfl, rfl⟩, rfl⟩ ?_
  exact .ret _ _

end OwnershipAux

open OwnershipAux in
/-- A guest makes a socket and accepts a connection, but has given no room for its address: the connection is closed, and the socket is
left for the drop. -/
theorem sockets_owned_accept : ∃ (log : List (Entry Unit SocketImport Int32 UnixState)) (s : UnixState),
    Session (Unix.prog linux) (fun _ => anyGuest) before log s ∧ s.2.2.numbers = [3, 4] ∧ s.2.2.closes = [some 1] ∧
    (∀ e ∈ log, Accounted Unix.HostSocket.rawFd e.after.2.1.sockets e.after.2.2) ∧
    DropCloses Unix.handles Unix.dropSockets s.2.1.sockets s.2.2 := by
  obtain ⟨tr₁, hsocket⟩ := runs_socket
  obtain ⟨tr₂, haccept⟩ := runs_accept
  have h₀ : Session (Unix.prog linux) (fun _ : Unit => anyGuest) before [] before := .nil
  have h₁ := h₀.snoc ⟨(), .socket 1 6 0, before, .returned 10000, listening⟩ hsocket
  have h₂ := h₁.snoc ⟨(), .accept 10000 0 16, listening, .returned (negErrno .efault), refused⟩ haccept
  obtain ⟨hafter, hdrop⟩ := (sockets_owned .any () true linux).1 _ _ h₂ (by simp) (by decide)
  exact ⟨_, refused, h₂, rfl, by decide, hafter, hdrop⟩

end WasmtimeMysql
