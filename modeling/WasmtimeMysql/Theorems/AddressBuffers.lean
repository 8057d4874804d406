import WasmtimeMysql.Lemmas.Wp

/-!
# Address buffers on Unix

`accept`, `recvfrom`, `getsockname` and `getpeername` allocate a buffer of the length the guest stored, let the kernel fill it and
store a length, and take as much of the buffer as the kernel says. Nothing bounds the guest's length, and the kernel stores the full
length of the address even when it cut it. `address_buffers_safe_iff` says when the imports get away with it.
-/

namespace WasmtimeMysql.Unix

open Effects Bytes

/-- An allocation within `MAX_IO_LEN`, or another command. -/
def AllocBounded : Sockets.Cmd → Prop
  | .inl (.alloc n) => n ≤ maxIoLen
  | .inl (.readGuest ..) => True
  | .inl (.writeGuest ..) => True
  | .inl (.readCstr _) => True
  | .inr _ => True

/-- An import that ended without a panic and allocated no buffer beyond `MAX_IO_LEN`. -/
def BuffersSafe (tr : List (Event Sockets)) (o : Outcome Int32) : Prop := o ≠ .panicked ∧ ∀ ev ∈ tr, AllocBounded ev.1

/-- The four imports that return an address. -/
inductive AddressImport where
  | accept (fd addrPtr addrLenPtr : Int32)
  | recvfrom (fd bufPtr len flags addrPtr addrLenPtr : Int32)
  | getsockname (fd addrPtr addrLenPtr : Int32)
  | getpeername (fd addrPtr addrLenPtr : Int32)

/-- The import it is. -/
def AddressImport.toImport : AddressImport → SocketImport
  | .accept fd addrPtr addrLenPtr => .accept fd addrPtr addrLenPtr
  | .recvfrom fd bufPtr len flags addrPtr addrLenPtr => .recvfrom fd bufPtr len flags addrPtr addrLenPtr
  | .getsockname fd addrPtr addrLenPtr => .getsockname fd addrPtr addrLenPtr
  | .getpeername fd addrPtr addrLenPtr => .getpeername fd addrPtr addrLenPtr

/-- The guest fd it is called with. -/
def AddressImport.fd : AddressImport → Int32
  | .accept fd .. | .recvfrom fd .. | .getsockname fd .. | .getpeername fd .. => fd

/-- The answers of the kernel, whatever they are. -/
abbrev Answers : Type := (c : Net.Cmd) → c.Resp

/-- A guest's length word and a kernel's answer that agree: the word is at most `MAX_IO_LEN`, and the call fails or reports a length
of at most the word. -/
def Fits (word : UInt32) (failed : Prop) (reported : UInt32) : Prop :=
  word.toNat ≤ maxIoLen ∧ (failed ∨ reported.toNat ≤ word.toNat)

/-- The condition on the guest's memory and the kernel's answers under which an import is safe. An import that cannot read its length
word stops before the buffer; `recvfrom` also stops when its own length is rejected, takes no address when the data could not be
written, and takes as much of the data as the kernel says, too: with MSG_TRUNC that is the length of the whole message. -/
def AddressFits (net : Answers) (e : Export) (socket : HostSocket) : AddressImport → Prop
  | .accept _ _ addrLenPtr =>
    ∀ word, e.readU32 addrLenPtr = .ok word →
      Fits word ((net (.accept socket.rawFd word)).rc < 0) (net (.accept socket.rawFd word)).len
  | .recvfrom _ bufPtr len flags _ addrLenPtr =>
    ∀ n word, checkedLen len = .ok n → e.readU32 addrLenPtr = .ok word →
      let answer := net (.recvfrom socket.rawFd n flags word)
      word.toNat ≤ maxIoLen ∧ (answer.rc < 0 ∨ answer.rc.toNatClampNeg ≤ n ∧
        ((∃ errno, e.writeAnswer bufPtr ((fill n answer.data).take answer.rc.toNatClampNeg) = .error errno) ∨
          answer.addrLen.toNat ≤ word.toNat))
  | .getsockname _ _ addrLenPtr =>
    ∀ word, e.readU32 addrLenPtr = .ok word →
      Fits word ((net (.getsockname socket.rawFd word)).rc < 0) (net (.getsockname socket.rawFd word)).len
  | .getpeername _ _ addrLenPtr =>
    ∀ word, e.readU32 addrLenPtr = .ok word →
      Fits word ((net (.getpeername socket.rawFd word)).rc < 0) (net (.getpeername socket.rawFd word)).len

/-- Every run of an import, with these answers of the kernel, is safe. -/
def RunsSafe (lc : Libc) (net : Answers) (e : Export) (a : AppState HostSocket) (i : SocketImport) : Prop :=
  ∀ tr o s', Runs (machine (.oracle net)) (prog lc i) (e, a, ()) tr o s' → BuffersSafe tr o

namespace AddressAux

/-- Not an allocation. -/
def NoAlloc (c : Sockets.Cmd) : Prop := ∀ n, c ≠ .inl (.alloc n)

/-- What allocates nothing is bounded. -/
theorem allocBounded_of_noAlloc {c : Sockets.Cmd} (h : NoAlloc c) : AllocBounded c := by
  rcases c with c | c
  · cases c with
    | alloc n => exact absurd rfl (h n)
    | readGuest ptr len => trivial
    | writeGuest ptr bytes => trivial
    | readCstr ptr => trivial
  · trivial

/-- An allocation is bounded by `MAX_IO_LEN`, ... -/
@[simp] theorem allocBounded_alloc (n : Nat) : AllocBounded (@Sum.inl (no_index _) (no_index _) (.alloc n)) ↔ n ≤ maxIoLen :=
  Iff.rfl

/-- ... a read ... -/
@[simp] theorem allocBounded_readGuest (ptr len : Int32) :
    AllocBounded (@Sum.inl (no_index _) (no_index _) (.readGuest ptr len)) := trivial

/-- ... and a write allocate nothing, ... -/
@[simp] theorem allocBounded_writeGuest (ptr : Int32) (bytes : List UInt8) :
    AllocBounded (@Sum.inl (no_index _) (no_index _) (.writeGuest ptr bytes)) := trivial

/-- ... nor does a command of the host. -/
@[simp] theorem allocBounded_host (c : (SocketSig HostSocket Empty Net).Cmd) :
    AllocBounded (@Sum.inr (no_index _) (no_index _) c) := trivial

/-- The oracle has an answer to everything. -/
theorem machine_total (net : Answers) : (machine (.oracle net)).Total :=
  (Machine.total_det _).sum ((Machine.total_det _).sum (Machine.total_oracle (S := Net) net))

/-- A write allocates nothing, ... -/
theorem quiet_writeGuest (ptr : Int32) (bytes : List UInt8) : (writeGuest ptr bytes : Import _).Quiet NoAlloc :=
  .cmd (fun _ => by simp)

/-- ... nor does a call of libc, ... -/
theorem quiet_libc (c : Net.Cmd) : (libc c).Quiet NoAlloc := .cmd (S := Sockets) (fun _ => by simp)

/-- ... an insertion ... -/
theorem quiet_insert (rawFd guestDomain hostDomain : Int32) : (insert rawFd guestDomain hostDomain).Quiet NoAlloc :=
  .bind (.cmd (S := Sockets) (fun _ => by simp)) fun _ => trivial

/-- ... or the question for the errno. -/
theorem quiet_negLastErrno (lc : Libc) : (negLastErrno lc).Quiet NoAlloc := by
  refine .bind (.bind (quiet_libc _) ?_) fun _ => trivial
  intro r
  cases r <;> trivial

/-- What is left after the last allocation and the last slice decides nothing. -/
theorem wp_safe_quiet {net : Answers} {p : Import Int32} (pre : List (Event Sockets)) (hp : p.Quiet NoAlloc)
    {s : Export × (AppState HostSocket × Unit)} :
    wp (machine (.oracle net)) p (fun tr o _ => BuffersSafe (pre ++ tr) o) s ↔ ∀ ev ∈ pre, AllocBounded ev.1 := by
  refine wp_quiet (machine_total net) hp fun tr v htr => ?_
  constructor
  · intro h ev hev
    exact h.2 ev (List.mem_append_left _ hev)
  · intro h
    refine ⟨by simp, fun ev hev => ?_⟩
    rcases List.mem_append.mp hev with hev | hev
    · exact h ev hev
    · exact allocBounded_of_noAlloc (htr ev hev)

variable {lc : Libc} {net : Answers} {e : Export} {a : AppState HostSocket} {socket : HostSocket}

/-- An import is safe if the only run there is, is. -/
theorem runsSafe_iff_wp (i : SocketImport) :
    RunsSafe lc net e a i ↔ wp (machine (.oracle net)) (prog lc i) (fun tr o _ => BuffersSafe tr o) (e, a, ()) :=
  wp_iff_runs.symm

/-- `accept` -/
theorem accept_safe_iff {fd addrPtr addrLenPtr : Int32} (hfd : a.sockets.find fd = some socket) :
    RunsSafe lc net e a (.accept fd addrPtr addrLenPtr) ↔ AddressFits net e socket (.accept fd addrPtr addrLenPtr) := by
  rw [runsSafe_iff_wp]
  simp only [prog, accept, AddressFits, Prog.pure_eq, Prog.ret_bind, wp_bind, wp_get, hfd, okOrEbadf, wpNext_returned, wp_readU32,
    List.cons_append, List.nil_append]
  cases hw : e.readU32 addrLenPtr with
  | error errno => simp [BuffersSafe]
  | ok word =>
    simp only [Except.ok.injEq, forall_eq', wp_bind, wp_alloc, wpNext_returned, wp_libc_oracle, List.cons_append, List.nil_append]
    by_cases hrc : (net (.accept socket.rawFd word)).rc < 0
    · rw [if_pos hrc]
      refine (wp_safe_quiet [_, _, _, _] (quiet_negLastErrno lc)).trans ?_
      simp [Fits, hrc]
    · rw [if_neg hrc, wp_bind, wp_sliceTo, denormalizeSockaddrForGuest, length_writeSockaddrFamily, length_fill]
      split
      · rename_i hlen
        refine (wp_safe_quiet [_, _, _, _] (.bind (quiet_writeGuest _ _) fun wrote => ?_)).trans ?_
        · rcases wrote with errno | _
          · exact .bind (quiet_libc _) fun _ => trivial
          · refine .bind (quiet_writeGuest _ _) fun wrote => ?_
            rcases wrote with errno | _
            · exact .bind (quiet_libc _) fun _ => trivial
            · exact quiet_insert _ _ _
        · simp [Fits, hlen]
      · rename_i hlen
        simp [BuffersSafe, Fits, hrc, hlen]

/-- The answer of the call that `sock_name` makes. -/
def nameAnswer (net : Answers) (kind : NameKind) (rawFd : Int32) (word : UInt32) : BufAnswer :=
  match kind with
  | .localName => net (.getsockname rawFd word)
  | .peer => net (.getpeername rawFd word)

/-- The call with its answer. -/
def nameEvent (net : Answers) (kind : NameKind) (rawFd : Int32) (word : UInt32) : Event Sockets :=
  match kind with
  | .localName => ⟨.inr (.inr (.getsockname rawFd word)), net (.getsockname rawFd word)⟩
  | .peer => ⟨.inr (.inr (.getpeername rawFd word)), net (.getpeername rawFd word)⟩

/-- A call that asks for a name allocates nothing. -/
theorem allocBounded_nameEvent (net : Answers) (kind : NameKind) (rawFd : Int32) (word : UInt32) :
    AllocBounded (nameEvent net kind rawFd word).1 := by
  cases kind <;> trivial

/-- Either of the calls that ask for a name, as one event. -/
theorem wp_callName {kind : NameKind} {rawFd : Int32} {word : UInt32} {u : Unit}
    {Q : List (Event Sockets) → Outcome BufAnswer → Export × (AppState HostSocket × Unit) → Prop} :
    wp (machine (.oracle net)) (callName kind rawFd word) Q (e, a, u) ↔
      Q [nameEvent net kind rawFd word] (.returned (nameAnswer net kind rawFd word)) (e, a, ()) := by
  cases kind with
  | localName => exact wp_libc_oracle
  | peer => exact wp_libc_oracle

/-- `sock_name` -/
theorem sockName_safe_iff {fd addrPtr addrLenPtr : Int32} (kind : NameKind) (hfd : a.sockets.find fd = some socket) :
    wp (machine (.oracle net)) (sockName lc fd addrPtr addrLenPtr kind) (fun tr o _ => BuffersSafe tr o) (e, a, ()) ↔
      ∀ word, e.readU32 addrLenPtr = .ok word →
        Fits word ((nameAnswer net kind socket.rawFd word).rc < 0) (nameAnswer net kind socket.rawFd word).len := by
  simp only [sockName, Prog.pure_eq, Prog.ret_bind, wp_bind, wp_get, hfd, okOrEbadf, wpNext_returned, wp_readU32,
    List.cons_append, List.nil_append]
  cases hw : e.readU32 addrLenPtr with
  | error errno => simp [BuffersSafe]
  | ok word =>
    have hev := allocBounded_nameEvent net kind socket.rawFd word
    simp only [Except.ok.injEq, forall_eq', wp_bind, wp_alloc, wp_callName, wpNext_returned, List.cons_append, List.nil_append]
    generalize nameAnswer net kind socket.rawFd word = answer
    generalize nameEvent net kind socket.rawFd word = ev at hev ⊢
    by_cases hrc : answer.rc < 0
    · rw [if_pos hrc]
      refine (wp_safe_quiet [_, _, _, _] (quiet_negLastErrno lc)).trans ?_
      simp [Fits, hrc, hev]
    · rw [if_neg hrc, wp_bind, wp_sliceTo, denormalizeSockaddrForGuest, length_writeSockaddrFamily, length_fill]
      split
      · rename_i hlen
        refine (wp_safe_quiet [_, _, _, _] (.bind (quiet_writeGuest _ _) fun wrote => ?_)).trans ?_
        · rcases wrote with errno | _
          · trivial
          · refine .bind (quiet_writeGuest _ _) fun wrote => ?_
            rcases wrote with errno | _ <;> trivial
        · simp [Fits, hlen, hev]
      · rename_i hlen
        simp [BuffersSafe, Fits, hrc, hlen]

/-- `recvfrom` -/
theorem recvfrom_safe_iff {fd bufPtr len flags addrPtr addrLenPtr : Int32} (hfd : a.sockets.find fd = some socket) :
    RunsSafe lc net e a (.recvfrom fd bufPtr len flags addrPtr addrLenPtr) ↔
      AddressFits net e socket (.recvfrom fd bufPtr len flags addrPtr addrLenPtr) := by
  rw [runsSafe_iff_wp]
  simp only [prog, recvfrom, AddressFits, Prog.pure_eq, Prog.ret_bind, wp_bind, wp_get, hfd, okOrEbadf, wpNext_returned,
    List.cons_append, List.nil_append]
  cases hn : checkedLen len with
  | error errno => simp [BuffersSafe]
  | ok n =>
    have hmax := checkedLen_le hn
    simp only [wp_bind, wp_readU32, wpNext_returned, List.cons_append, List.nil_append]
    cases hw : e.readU32 addrLenPtr with
    | error errno => simp [BuffersSafe]
    | ok word =>
      simp only [Except.ok.injEq, wp_bind, wp_alloc, wpNext_returned, wp_libc_oracle, List.cons_append, List.nil_append]
      by_cases hrc : (net (.recvfrom socket.rawFd n flags word)).rc < 0
      · rw [if_pos hrc]
        refine (wp_safe_quiet [_, _, _, _, _] (quiet_negLastErrno lc)).trans ?_
        simp [hrc, hmax]
      · rw [if_neg hrc, wp_bind, wp_sliceTo, length_fill]
        split
        · rename_i hle
          rw [wpNext_returned, wp_bind, wp_writeGuest, wpNext_returned]
          cases hwrite : e.writeAnswer bufPtr ((fill n (net (.recvfrom socket.rawFd n flags word)).data).take
              (net (.recvfrom socket.rawFd n flags word)).rc.toNatClampNeg) with
          | error errno => simp [BuffersSafe, hmax, hle, hwrite]
          | ok _ =>
            simp only
            rw [wp_bind, wp_sliceTo, denormalizeSockaddrForGuest, length_writeSockaddrFamily, length_fill]
            split
            · rename_i hlen
              refine (wp_safe_quiet [_, _, _, _, _, _] (.bind (quiet_writeGuest _ _) fun wrote => ?_)).trans ?_
              · rcases wrote with errno | _
                · trivial
                · refine .bind (quiet_writeGuest _ _) fun wrote => ?_
                  rcases wrote with errno | _ <;> trivial
              · simp [hle, hlen, hmax]
            · rename_i hlen
              simp [BuffersSafe, hrc, hlen, hwrite]
        · rename_i hle
          simp [BuffersSafe, hrc, hle]

end AddressAux

/-- For every live guest fd, every memory and every answer of the kernel, the four imports neither panic nor allocate beyond
`MAX_IO_LEN` exactly when the address fits (`AddressFits`). -/
theorem address_buffers_safe_iff (lc : Libc) (net : Answers) (e : Export) (a : AppState HostSocket) (i : AddressImport)
    (socket : HostSocket) (hfd : a.sockets.find i.fd = some socket) :
    RunsSafe lc net e a i.toImport ↔ AddressFits net e socket i := by
  cases i with
  | accept fd addrPtr addrLenPtr => exact AddressAux.accept_safe_iff hfd
  | recvfrom fd bufPtr len flags addrPtr addrLenPtr => exact AddressAux.recvfrom_safe_iff hfd
  | getsockname fd addrPtr addrLenPtr =>
    exact (AddressAux.runsSafe_iff_wp _).trans (AddressAux.sockName_safe_iff .localName hfd)
  | getpeername fd addrPtr addrLenPtr =>
    exact (AddressAux.runsSafe_iff_wp _).trans (AddressAux.sockName_safe_iff .peer hfd)

/-- A kernel that has a message of three bytes, and addresses of sixteen. -/
def inetAnswers : Answers
  | .getsockname .. => ⟨0, [], 16⟩
  | .recvfrom .. => ⟨3, [104, 105, 33], List.replicate 16 1, 16⟩
  | c => refusing c

/-- A guest that offers sixteen bytes for the address and four for the message is served by `recvfrom`. -/
theorem address_buffers_safe_recvfrom :
    RunsSafe linux inetAnswers (.memory (16 :: List.replicate 31 0)) oneSocket (.recvfrom 10000 8 4 0 12 0) := by
  refine (address_buffers_safe_iff linux inetAnswers _ oneSocket (.recvfrom 10000 8 4 0 12 0) ⟨3, 2, 2⟩ (by decide)).mpr ?_
  intro n word hn hword
  have hread : Export.readU32 (.memory (16 :: List.replicate 31 0)) 0 = .ok 16 := rfl
  cases hread.symm.trans hword
  cases hn
  exact ⟨by decide, .inr ⟨by decide, .inr (by decide)⟩⟩

/-- A guest that offers two bytes to `getsockname` makes the runner panic: the kernel copies two and reports sixteen. -/
theorem address_buffers_panic_getsockname : oneSocket.sockets.find 10000 = some ⟨3, 2, 2⟩ ∧
    ¬RunsSafe linux inetAnswers (.memory (2 :: List.replicate 31 0)) oneSocket (.getsockname 10000 8 0) := by
  have hfd : oneSocket.sockets.find 10000 = some ⟨3, 2, 2⟩ := by decide
  refine ⟨hfd, fun h => ?_⟩
  have hfits := (AddressAux.sockName_safe_iff .localName hfd).mp ((AddressAux.runsSafe_iff_wp _).mp h) 2 rfl
  exact absurd hfits (by unfold Fits; decide)

end WasmtimeMysql.Unix
