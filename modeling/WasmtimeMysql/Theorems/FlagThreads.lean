import WasmtimeMysql.Lemmas.Wp
import WasmtimeMysql.Lib.Atomic

/-!
# The status flags of a socket under many threads

On Unix the import `fcntl` reads the flags of the host's socket, changes one of them and writes all of them back, and another thread may come in
between. Nothing is lost: the flags that it writes back unchanged are the same for every thread, since none of the guest's can change them. So the
calls of any number of threads seem to happen at once (`flags_linearizable`).
-/

namespace WasmtimeMysql.Unix

open Effects

/-- A call of `fcntl` on the socket. -/
structure FcntlCall where
  cmd : Int32
  arg : Int32
  deriving DecidableEq, Repr

/-- What it runs. -/
def FcntlCall.prog (lc : Libc) (fd : Int32) (c : FcntlCall) : Import Int32 := fcntl lc fd c.cmd c.arg

/-- What the host does with the flags of its socket: it returns them, and it sets those that it lets change, of which `O_NONBLOCK` is one. The
other calls leave them alone. -/
def flagsHost (lc : Libc) (raw : Int32) : Machine Net Int32
  | flags, .fcntl raw' .getfl, r, flags' => flags' = flags ∧ (raw' = raw → r = flags)
  | flags, .fcntl raw' (.setfl new), r, flags' =>
    if raw' = raw then r = 0 ∧ ∃ settable, settable &&& lc.oNonblock = lc.oNonblock ∧ flags' = (flags &&& ~~~settable) ||| (new &&& settable)
    else flags' = flags
  | flags, _, _, flags' => flags' = flags

/-- The mode of a socket, as an object that does a call in one step. -/
def modeDoes : Bool → FcntlCall → Int32 → Bool → Prop
  | nonblocking, c, v, nonblocking' =>
    if c.cmd = wasiFGetfl then v = (if nonblocking then wasiONonblock else 0) ∧ nonblocking' = nonblocking
    else if c.cmd = wasiFSetfl then v = 0 ∧ nonblocking' = (c.arg &&& wasiONonblock != 0)
    else v = negErrno .einval ∧ nonblocking' = nonblocking

namespace FlagThreadsAux

/-! ### Bits -/

/-- Words with the same bits are the same. -/
theorem eq_of_bits {x y : Int32} (h : ∀ b < 32, x.toBitVec.getLsbD b = y.toBitVec.getLsbD b) : x = y :=
  Int32.toBitVec_inj.mp (BitVec.eq_of_getLsbD_eq h)

/-- A bit of a conjunction, ... -/
theorem bit_and (x y : Int32) (b : Nat) : (x &&& y).toBitVec.getLsbD b = (x.toBitVec.getLsbD b && y.toBitVec.getLsbD b) := by
  rw [Int32.toBitVec_and, BitVec.getLsbD_and]

/-- ... of a disjunction, ... -/
theorem bit_or (x y : Int32) (b : Nat) : (x ||| y).toBitVec.getLsbD b = (x.toBitVec.getLsbD b || y.toBitVec.getLsbD b) := by
  rw [Int32.toBitVec_or, BitVec.getLsbD_or]

/-- ... and of a complement. -/
theorem bit_not (x : Int32) {b : Nat} (hb : b < 32) : (~~~x).toBitVec.getLsbD b = !x.toBitVec.getLsbD b := by
  rw [Int32.toBitVec_not, BitVec.getLsbD_not, decide_eq_true hb, Bool.true_and]

/-- The sign is a bit. -/
theorem nonneg_iff (x : Int32) : ¬x < 0 ↔ x.toBitVec.getLsbD 31 = false := by
  show ¬x.toBitVec.slt 0#32 = true ↔ x.toBitVec.getLsbD 31 = false
  rw [BitVec.slt_zero_iff_msb_cond, BitVec.msb_eq_getLsbD_last]
  simp

section
variable {f w s n base : Int32}

/-- The flags that are not in `n` stay as they are when they are written back. -/
theorem set_others (hf : f &&& ~~~n = base) (hw : w &&& ~~~n = base) : ((f &&& ~~~s) ||| (w &&& s)) &&& ~~~n = base := by
  refine eq_of_bits fun b hb => ?_
  have hfb := congrArg (fun x : Int32 => x.toBitVec.getLsbD b) hf
  have hwb := congrArg (fun x : Int32 => x.toBitVec.getLsbD b) hw
  simp only [bit_and, bit_or, bit_not _ hb] at hfb hwb ⊢
  rw [← hfb]
  revert hfb hwb
  cases f.toBitVec.getLsbD b <;> cases w.toBitVec.getLsbD b <;> cases s.toBitVec.getLsbD b <;> cases n.toBitVec.getLsbD b <;> simp

/-- Those in `n` become what was written. -/
theorem set_mask (hs : s &&& n = n) : ((f &&& ~~~s) ||| (w &&& s)) &&& n = w &&& n := by
  refine eq_of_bits fun b hb => ?_
  have hsb := congrArg (fun x : Int32 => x.toBitVec.getLsbD b) hs
  simp only [bit_and, bit_or, bit_not _ hb] at hsb ⊢
  revert hsb
  cases f.toBitVec.getLsbD b <;> cases w.toBitVec.getLsbD b <;> cases s.toBitVec.getLsbD b <;> cases n.toBitVec.getLsbD b <;> simp

/-- What the import writes: the others as they were read, ... -/
theorem new_others (nonblock : Prop) [Decidable nonblock] : (if nonblock then w ||| n else w &&& ~~~n) &&& ~~~n = w &&& ~~~n := by
  refine eq_of_bits fun b hb => ?_
  split <;> simp only [bit_and, bit_or, bit_not _ hb] <;> cases w.toBitVec.getLsbD b <;> cases n.toBitVec.getLsbD b <;> rfl

/-- ... and the one as it is asked for. -/
theorem new_mask (hn : n ≠ 0) (nonblock : Prop) [Decidable nonblock] : (if nonblock then w ||| n else w &&& ~~~n) &&& n ≠ 0 ↔ nonblock := by
  by_cases h : nonblock
  · have heq : (w ||| n) &&& n = n := by
      refine eq_of_bits fun b _ => ?_
      simp only [bit_and, bit_or]
      cases w.toBitVec.getLsbD b <;> cases n.toBitVec.getLsbD b <;> rfl
    simp only [h, if_true, heq, iff_true]
    exact hn
  · have heq : (w &&& ~~~n) &&& n = 0 := by
      refine eq_of_bits fun b hb => ?_
      simp only [bit_and, bit_not _ hb]
      cases w.toBitVec.getLsbD b <;> cases n.toBitVec.getLsbD b <;> simp
    simp only [h, if_false, heq, ne_eq, not_true_eq_false]

/-- Flags are not negative if the others are not. -/
theorem nonneg_of_others (hn : ¬n < 0) (hbase : ¬base < 0) (hf : f &&& ~~~n = base) : ¬f < 0 := by
  rw [nonneg_iff] at hn hbase ⊢
  have hfb := congrArg (fun x : Int32 => x.toBitVec.getLsbD 31) hf
  simpa only [bit_and, bit_not _ (by decide : 31 < 32), hn, hbase, Bool.not_false, Bool.and_true] using hfb

end

/-! ### The program -/

section
variable (lc : Libc)

/-- `fcntl` looks the socket up, ... -/
theorem fcntl_eq (fd cmd arg : Int32) : ∃ k, fcntl lc fd cmd arg = .call (S := Sockets) (.inr (.inl (.sockets (.get fd)))) k ∧
    ∀ socket, k (some socket) = socketFcntl lc socket.rawFd cmd arg := ⟨_, rfl, fun _ => rfl⟩

/-- ... asks for its flags, ... -/
theorem socketFcntl_getfl (raw arg : Int32) : ∃ k, socketFcntl lc raw wasiFGetfl arg = .call (S := Sockets) (.inr (.inr (.fcntl raw .getfl))) k ∧
    ∀ flags : Int32, ¬flags < 0 → k flags = .ret (if flags &&& lc.oNonblock ≠ 0 then wasiONonblock else 0) := by
  refine ⟨_, rfl, ?_⟩
  intro flags hflags
  refine (if_neg hflags).trans ?_
  split <;> rfl

/-- The rest of `F_SETFL` when it has the flags. -/
def setting (raw arg flags : Int32) : Import Int32 :=
  .call (S := Sockets) (.inr (.inr (.fcntl raw (.setfl (if arg &&& wasiONonblock ≠ 0 then flags ||| lc.oNonblock else flags &&& ~~~lc.oNonblock)))))
    fun rc => cvtI32 lc rc

/-- ... or asks for them and sets them, ... -/
theorem socketFcntl_setfl (raw arg : Int32) : ∃ k, socketFcntl lc raw wasiFSetfl arg = .call (S := Sockets) (.inr (.inr (.fcntl raw .getfl))) k ∧
    ∀ flags : Int32, ¬flags < 0 → k flags = setting lc raw arg flags := by
  refine ⟨_, rfl, ?_⟩
  intro flags hflags
  exact if_neg hflags

/-- ... and knows no other command. -/
theorem socketFcntl_other {raw cmd arg : Int32} (hget : cmd ≠ wasiFGetfl) (hset : cmd ≠ wasiFSetfl) :
    socketFcntl lc raw cmd arg = .ret (negErrno .einval) := by
  unfold socketFcntl
  rw [if_neg hget, if_neg hset]
  rfl

/-! ### The simulation -/

/-- The states of the threads and of the object: the fd is open, and the mode is what the host's flag says; `base` are the other flags. -/
structure Agrees (fd raw base : Int32) (s : Export × (AppState HostSocket × Int32)) (nonblocking : Bool) : Prop where
  found : ∃ socket, s.2.1.sockets.find fd = some socket ∧ socket.rawFd = raw
  others : s.2.2 &&& ~~~lc.oNonblock = base
  mode : s.2.2 &&& lc.oNonblock ≠ 0 ↔ nonblocking = true

/-- What is left of a call that is not done. Flags that were read are out of date, but for those that do not change. -/
def Pending (fd raw base : Int32) (c : FcntlCall) (p : Import Int32) : Prop :=
  p = c.prog lc fd ∨ p = socketFcntl lc raw c.cmd c.arg ∨
    c.cmd = wasiFSetfl ∧ ∃ flags, flags &&& ~~~lc.oNonblock = base ∧ p = setting lc raw c.arg flags

variable {lc} {fd raw base : Int32}

/-- The steps of a call. -/
theorem pending_cases {c : FcntlCall} {p : Import Int32} (h : Pending lc fd raw base c p) :
    (∃ k, p = .call (S := Sockets) (.inr (.inl (.sockets (.get fd)))) k ∧ ∀ socket, k (some socket) = socketFcntl lc socket.rawFd c.cmd c.arg) ∨
    (c.cmd = wasiFGetfl ∧ ∃ k, p = .call (S := Sockets) (.inr (.inr (.fcntl raw .getfl))) k ∧
      ∀ flags : Int32, ¬flags < 0 → k flags = .ret (if flags &&& lc.oNonblock ≠ 0 then wasiONonblock else 0)) ∨
    (c.cmd = wasiFSetfl ∧ ∃ k, p = .call (S := Sockets) (.inr (.inr (.fcntl raw .getfl))) k ∧
      ∀ flags : Int32, ¬flags < 0 → k flags = setting lc raw c.arg flags) ∨
    (c.cmd = wasiFSetfl ∧ ∃ flags, flags &&& ~~~lc.oNonblock = base ∧ p = setting lc raw c.arg flags) ∨
    (c.cmd ≠ wasiFGetfl ∧ c.cmd ≠ wasiFSetfl ∧ p = .ret (negErrno .einval)) := by
  rcases h with rfl | rfl | hset
  · exact .inl (fcntl_eq lc fd c.cmd c.arg)
  · right
    by_cases hget : c.cmd = wasiFGetfl
    · rw [hget]
      exact .inl ⟨rfl, socketFcntl_getfl lc raw c.arg⟩
    · by_cases hset : c.cmd = wasiFSetfl
      · rw [hset]
        exact .inr (.inl ⟨rfl, socketFcntl_setfl lc raw c.arg⟩)
      · exact .inr (.inr (.inr ⟨hget, hset, socketFcntl_other lc hget hset⟩))
  · exact .inr (.inr (.inr (.inl hset)))

/-- The last step of `F_SETFL`. -/
theorem agrees_set {e : Export} {a : AppState HostSocket} {flags old settable arg : Int32} {nonblocking : Bool} (hn : lc.oNonblock ≠ 0)
    (h : Agrees lc fd raw base (e, a, old) nonblocking) (hflags : flags &&& ~~~lc.oNonblock = base)
    (hsettable : settable &&& lc.oNonblock = lc.oNonblock) :
    Agrees lc fd raw base (e, a, (old &&& ~~~settable) |||
      ((if arg &&& wasiONonblock ≠ 0 then flags ||| lc.oNonblock else flags &&& ~~~lc.oNonblock) &&& settable)) (arg &&& wasiONonblock != 0) := by
  refine ⟨h.found, set_others h.others ((new_others _).trans hflags), ?_⟩
  rw [set_mask hsettable, new_mask hn, bne_iff_ne]

/-- The flags of the host are the mode of the object, with the others as they were. -/
theorem simulates {ι : Type} (hn : lc.oNonblock ≠ 0) (hpos : ¬lc.oNonblock < 0) (hbase : ¬base < 0) :
    Simulates (FcntlCall.prog lc fd) (machine (flagsHost lc raw)) modeDoes (fun (_ : ι) _ => True) (Agrees lc fd raw base)
      (fun _ _ _ => Pending lc fd raw base) (fun _ _ _ _ v p => p = .ret v) where
  start := fun _ => .inl rfl
  issue := by
    rintro ⟨e, a, flags⟩ nonblocking ⟨e', a', flags'⟩ i c cmd k r hagrees hpending hM
    have hflags : ¬flags < 0 := nonneg_of_others hpos hbase hagrees.others
    rcases pending_cases hpending with ⟨k', hp, hnext⟩ | ⟨hcmd, k', hp, hnext⟩ | ⟨hcmd, k', hp, hnext⟩ | ⟨hcmd, read, hread, hp⟩ | ⟨-, -, hp⟩
    · cases hp
      obtain ⟨socket, hfind, hraw⟩ := hagrees.found
      obtain ⟨⟨hdet, hflags'⟩, he⟩ := hM
      obtain ⟨hr, ha⟩ := Machine.eq_of_det hdet
      cases he
      cases ha
      cases hflags'
      have hfound : r = some socket := hr.trans hfind
      rw [hfound, hnext, hraw]
      exact .inl ⟨hagrees, .inr (.inl rfl)⟩
    · cases hp
      obtain ⟨⟨⟨rfl, hr⟩, ha⟩, he⟩ := hM
      cases he
      cases ha
      rw [hr rfl, hnext flags' hflags]
      refine .inr ⟨_, nonblocking, ?_, hagrees, rfl⟩
      simp only [modeDoes, hcmd, if_true, hagrees.mode, and_self]
    · cases hp
      obtain ⟨⟨⟨rfl, hr⟩, ha⟩, he⟩ := hM
      cases he
      cases ha
      rw [hr rfl, hnext flags' hflags]
      exact .inl ⟨hagrees, .inr (.inr ⟨hcmd, flags', hagrees.others, rfl⟩)⟩
    · cases hp
      obtain ⟨⟨hset, ha⟩, he⟩ := hM
      cases he
      cases ha
      obtain ⟨hr, settable, hsettable, rfl⟩ := (if_pos rfl).mp hset
      refine .inr ⟨0, _, ?_, agrees_set hn hagrees hread hsettable, ?_⟩
      · have hne : wasiFSetfl ≠ wasiFGetfl := by decide
        simp only [modeDoes, hcmd, hne, if_true, if_false, and_self]
      · rw [hr]
        rfl
    · cases hp
  rest := by
    rintro s t s' i c v cmd k r - hd
    cases hd
  last := by
    rintro s t i c v hagrees hpending
    rcases pending_cases hpending with ⟨k', hp, -⟩ | ⟨-, k', hp, -⟩ | ⟨-, k', hp, -⟩ | ⟨-, read, -, hp⟩ | ⟨hget, hset, hp⟩ <;> cases hp
    refine ⟨t, ?_, hagrees⟩
    simp only [modeDoes, hget, hset, if_false, and_self]
  value := by
    rintro s t i c v v' hd
    cases hd
    rfl
  safe := by
    rintro s t i (⟨c, hpending⟩ | ⟨c, v, hd⟩)
    · rcases pending_cases hpending with ⟨k', hp, -⟩ | ⟨-, k', hp, -⟩ | ⟨-, k', hp, -⟩ | ⟨-, read, -, hp⟩ | ⟨-, -, hp⟩ <;> cases hp
    · cases hd
  othersJ := fun _ _ _ hp => hp
  othersD := fun _ _ _ hd => hd
  keepJ := fun hp _ => hp
  keepD := fun hd _ => hd

end

end FlagThreadsAux

open FlagThreadsAux in
/-- However many threads of the guest call `fcntl` on an open socket, with any commands and arguments, and however their steps interleave, every
history of their calls is one of the mode, and the flag of the host is the mode in the end; the socket's other flags are as they were. -/
theorem flags_linearizable (ι : Type) [DecidableEq ι] {lc : Libc} (hlc : lc = linux ∨ lc = macos) (fd : Int32) (socket : HostSocket) (e : Export)
    (a : AppState HostSocket) (flags : Int32) (hopen : a.sockets.find fd = some socket) (hflags : ¬flags < 0)
    (log : List (Move Sockets ι FcntlCall Int32 (Export × (AppState HostSocket × Int32)))) (last : Pool Sockets ι FcntlCall Int32 _)
    (hrun : Pool.Run (FcntlCall.prog lc fd) (machine (flagsHost lc socket.rawFd)) (e, a, flags) log last) :
    ∃ calls nonblocking, Atomic.Run modeDoes (flags &&& lc.oNonblock != 0) (history log) calls nonblocking ∧
      (last.state.2.2 &&& lc.oNonblock ≠ 0 ↔ nonblocking = true) ∧ last.state.2.2 &&& ~~~lc.oNonblock = flags &&& ~~~lc.oNonblock := by
  have hmask : lc.oNonblock ≠ 0 ∧ ¬lc.oNonblock < 0 := by
    rcases hlc with rfl | rfl <;> decide
  have hbase : ¬(flags &&& ~~~lc.oNonblock) < 0 := by
    rw [nonneg_iff] at hflags ⊢
    rw [bit_and, hflags, Bool.false_and]
  have hstart : Agrees lc fd socket.rawFd (flags &&& ~~~lc.oNonblock) (e, a, flags) (flags &&& lc.oNonblock != 0) :=
    ⟨⟨socket, hopen, rfl⟩, rfl, bne_iff_ne.symm⟩
  obtain ⟨calls, nonblocking, hatomic, hend⟩ := (simulates hmask.1 hmask.2 hbase).linearizes hstart hrun fun _ _ _ _ => trivial
  exact ⟨calls, nonblocking, hatomic, hend.mode, hend.others⟩

namespace FlagThreadsAux

/-- A socket of the host. -/
def oneSocket : AppState HostSocket := ⟨true, ((FdTable.empty socketFdBase HostSocket).insert ⟨3, 2, 2⟩).2⟩

/-- It is open for reading and writing, and these are its flags. -/
def withFlags (flags : Int32) : Export × (AppState HostSocket × Int32) := (.missing, oneSocket, flags)

/-- The socket is looked up, ... -/
theorem get_socket (flags : Int32) : machine (flagsHost linux 3) (withFlags flags) (.inr (.inl (.sockets (.get 10000)))) (some ⟨3, 2, 2⟩)
    (withFlags flags) := ⟨⟨rfl, rfl⟩, rfl⟩

/-- ... its flags are asked for, ... -/
theorem get_flags (flags : Int32) : machine (flagsHost linux 3) (withFlags flags) (.inr (.inr (.fcntl 3 .getfl))) flags (withFlags flags) :=
  ⟨⟨⟨rfl, fun _ => rfl⟩, rfl⟩, rfl⟩

/-- ... and set. -/
theorem set_flags (flags new flags' : Int32) (h : flags' = (flags &&& ~~~linux.oNonblock) ||| (new &&& linux.oNonblock)) :
    machine (flagsHost linux 3) (withFlags flags) (.inr (.inr (.fcntl 3 (.setfl new)))) (0 : Int32) (withFlags flags') :=
  ⟨⟨⟨rfl, linux.oNonblock, rfl, h⟩, rfl⟩, rfl⟩

end FlagThreadsAux

open FlagThreadsAux in
/-- Two threads read the flags, then one makes the socket blocking and the other makes it nonblocking. -/
theorem flags_linearizable_two : ∃ log last,
    Pool.Run (FcntlCall.prog linux 10000) (machine (flagsHost linux 3)) (withFlags 2) log last ∧
    history log = [.start true ⟨4, 4⟩, .start false ⟨4, 0⟩, .finish false 0, .finish true 0] ∧
    ∃ calls, Atomic.Run modeDoes false (history log) calls true := by
  have h₀ : Pool.Run (FcntlCall.prog linux 10000) (machine (flagsHost linux 3)) (withFlags 2) ([] : List (Move _ Bool _ _ _)) _ := .nil
  have h₁ := h₀.started true ⟨4, 4⟩ rfl
  have h₂ := h₁.started false ⟨4, 0⟩ rfl
  have h₃ := h₂.issued true rfl (get_socket 2)
  have h₄ := h₃.issued true rfl (get_flags 2)
  have h₅ := h₄.issued false rfl (get_socket 2)
  have h₆ := h₅.issued false rfl (get_flags 2)
  have h₇ := h₆.issued false rfl (set_flags 2 2 2 rfl)
  have h₈ := h₇.finished false rfl
  have h₉ := h₈.issued true rfl (set_flags 2 0x802 0x802 rfl)
  have h₁₀ := h₉.finished true rfl
  obtain ⟨calls, nonblocking, hatomic, hmode, -⟩ := flags_linearizable Bool (.inl rfl) 10000 ⟨3, 2, 2⟩ .missing oneSocket 2 (by decide) (by decide)
    _ _ h₁₀
  cases hmode.mp (by decide)
  exact ⟨_, _, h₁₀, rfl, calls, hatomic⟩

end WasmtimeMysql.Unix
