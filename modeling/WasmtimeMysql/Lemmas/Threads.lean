import WasmtimeMysql.Lemmas.Numbers
import WasmtimeMysql.Lib.Pool

/-!
# Threads over one kernel

An import looks up its socket under the mutex and calls libc on the copied number after the mutex is dropped. Between the two any
other thread may close the socket, and the kernel may give its number to a new one. The threads are a pool over one table and one
kernel; the kernel's sockets have an identity apart from their numbers, and what a guest fd was bound to is noted beside the table.

A number in the table, or taken out of it, or not yet put into it has one owner, and stays open until the owner closes it. What fails
is a copied number: `Inv.step` keeps it right only while the kernel does not reuse one that another thread may still call it on.
-/

namespace WasmtimeMysql.Unix

open Effects

/-! ## The kernel -/

/-- The open numbers, each with the socket it is of. Sockets are counted as they are made. -/
structure Kernel where
  socketOf : Int32 → Option Nat
  made : Nat

namespace Kernel

/-- A new socket under a number. -/
def openRaw (k : Kernel) (raw : Int32) : Kernel :=
  ⟨fun x => if x = raw then some k.made else k.socketOf x, k.made + 1⟩

/-- The number is free again. -/
def closeRaw (k : Kernel) (raw : Int32) : Kernel :=
  { k with socketOf := fun x => if x = raw then none else k.socketOf x }

/-- A new socket is behind its number, and the other numbers keep theirs. -/
@[simp] theorem socketOf_openRaw (k : Kernel) (raw x : Int32) :
    (k.openRaw raw).socketOf x = if x = raw then some k.made else k.socketOf x := rfl

end Kernel

/-- `POLLNVAL` -/
def pollNval : UInt16 := 0x20

/-- The answer to a call on a number that is not open: it fails, or, for `poll`, it says so of the entries with the number. -/
def Refused : (c : Net.Cmd) → c.Resp → Int32 → Prop
  | .poll fds timeout, answer, raw =>
    failed (.poll fds timeout) answer ∨
      ∀ i entry, fds[i]? = some entry → entry.fd = raw → answer.revents.getD i 0 = pollNval
  | c, answer, _ => failed c answer

/-- What the kernel may answer: a call on a number that is not open is refused, a new socket gets any number that is not open, and
`close` frees the number whatever it returns. -/
def kernel : Machine Net Kernel := fun k c r k' =>
  (∀ raw ∈ named c, k.socketOf raw = none → Refused c r raw) ∧
  match madeBy c r with
  | some raw => k.socketOf raw = none ∧ k' = k.openRaw raw
  | none =>
    match c with
    | .close raw => k' = k.closeRaw raw
    | _ => k' = k

/-! ## The threads -/

/-- The table and the kernel, and the socket each guest fd was bound to when it was last returned. -/
abbrev World : Type := (Unit × (AppState HostSocket × Kernel)) × (Int32 → Option Nat)

namespace World

def sockets (w : World) : FdTable socketFdBase HostSocket := w.1.2.1.sockets

def host (w : World) : Kernel := w.1.2.2

def socketOf (w : World) (raw : Int32) : Option Nat := w.host.socketOf raw

def bound (w : World) (fd : Int32) : Option Nat := w.2 fd

/-- No socket, and no guest fd. -/
def start (allowed : Bool) : World := (((), ⟨allowed, .empty socketFdBase HostSocket⟩, ⟨fun _ => none, 0⟩), fun _ => none)

end World

/-- An insert into the table binds the guest fd it returns to the socket whose number it inserts. -/
def noteBinding (s : Unit × (AppState HostSocket × Kernel)) (bound : Int32 → Option Nat) :
    (c : Sockets.Cmd) → Sockets.Resp c → Int32 → Option Nat
  | .inr (.inl (.sockets (.insert e))), r => fun fd => if fd = r.1 then s.2.2.socketOf e.rawFd else bound fd
  | _, _ => bound

/-- One import step: guest memory may answer anything, the table is under its mutex, and the kernel answers as it may. -/
def threads : Machine Sockets World := (machineOver .any kernel).noting noteBinding

section
variable {ι : Type}

/-- The threads at work. -/
abbrev Threads (ι : Type) : Type := Pool Sockets ι SocketImport Int32 World

/-- The runs of the threads. -/
abbrev ThreadRun [DecidableEq ι] (lc : Libc) (allowed : Bool) :
    List (Move Sockets ι SocketImport Int32 World) → Threads ι → Prop :=
  Pool.Run (prog lc) threads (World.start allowed)

end

/-- The job copied the entry of a guest fd out of the table, in this world. -/
def Copied (j : Job Sockets SocketImport Int32 World) (fd : Int32) (socket : HostSocket) (w : World) : Prop :=
  ⟨w, .inr (.inl (.sockets (.get fd))), some socket⟩ ∈ j.past

/-- The job took the entry of a guest fd out of the table, in this world. -/
def TookOut (j : Job Sockets SocketImport Int32 World) (fd : Int32) (socket : HostSocket) (w : World) : Prop :=
  ⟨w, .inr (.inl (.sockets (.remove fd))), some socket⟩ ∈ j.past

/-- A command that is a call on the number. -/
def Names (raw : Int32) : Sockets.Cmd → Prop
  | .inr (.inr c) => raw ∈ named c
  | _ => False

section
variable {ι : Type}

/-- The kernel hands out no number that another thread has copied and may still call it on. -/
def NoReuse (m : Move Sockets ι SocketImport Int32 World) : Prop :=
  ∀ c r raw, m.action = .issue (.inr (.inr c)) r → madeBy c r = some raw →
    ∀ i j fd socket w, i ≠ m.who → m.before.job i = some j → Copied j fd socket w → socket.rawFd = raw →
      j.rest.Only (fun c => ¬Names raw c)

/-- A call that a thread makes for a guest fd acts on the socket that the guest fd was bound to when the thread found it in the
table, or is refused. -/
def ActsOnBound (m : Move Sockets ι SocketImport Int32 World) : Prop :=
  ∀ c r j fd socket w, m.action = .issue (.inr (.inr c)) r → m.before.job m.who = some j →
    Copied j fd socket w ∨ TookOut j fd socket w → socket.rawFd ∈ named c →
      (∃ id, w.bound fd = some id ∧ m.before.state.socketOf socket.rawFd = some id) ∨ Refused c r socket.rawFd

end

namespace IdentityAux

/-! ### What a step does to the world -/

section
variable {w w' : World}

/-- A step that leaves the table, the kernel and the bindings changes nothing. -/
theorem world_eq (hrest : w'.1.2 = w.1.2) (hbound : w'.2 = w.2) : w' = w := Prod.ext (Prod.ext rfl hrest) hbound

/-- An access to guest memory changes nothing, ... -/
theorem step_memory {c : GuestMem.Cmd} {r : c.Resp} (h : threads w (.inl c) r w') : w' = w := world_eq h.1.2 h.2

/-- A command on the table or on the flag. -/
theorem step_appState {c : AppState.Cmd HostSocket Empty} {r : c.Resp} (h : threads w (.inr (.inl c)) r w') :
    r = (w.1.2.1.handle Empty.elim c).1 ∧ w'.1.2.1 = (w.1.2.1.handle Empty.elim c).2 ∧ w'.host = w.host := by
  obtain ⟨⟨⟨hdet, hhost⟩, -⟩, -⟩ := h
  obtain ⟨hr, ha⟩ := Machine.eq_of_det (S := AppState.Sig HostSocket Empty) hdet
  exact ⟨hr, ha, hhost⟩

/-- ... nor does a look at the flag ... -/
theorem step_networkAllowed {r : Bool} (h : threads w (.inr (.inl .networkAllowed)) r w') : w' = w := by
  obtain ⟨-, ha, hhost⟩ := step_appState h
  exact world_eq (Prod.ext ha hhost) h.2

/-- ... or a lookup. -/
theorem step_get {fd : Int32} {r : Option HostSocket} (h : threads w (.inr (.inl (.sockets (.get fd)))) r w') :
    r = w.sockets.find fd ∧ w' = w := by
  obtain ⟨hr, ha, hhost⟩ := step_appState h
  exact ⟨hr, world_eq (Prod.ext ha hhost) h.2⟩

/-- A removal changes the table only. -/
theorem step_remove {fd : Int32} {r : Option HostSocket} (h : threads w (.inr (.inl (.sockets (.remove fd)))) r w') :
    r = w.sockets.find fd ∧ w'.sockets = w.sockets.remove fd ∧ w'.host = w.host ∧ w'.bound = w.bound := by
  obtain ⟨hr, ha, hhost⟩ := step_appState h
  exact ⟨hr, congrArg AppState.sockets ha, hhost, h.2⟩

/-- An insertion binds the new fd to the socket behind the number. -/
theorem step_insert {e : HostSocket} {r : Int32 × Option HostSocket}
    (h : threads w (.inr (.inl (.sockets (.insert e)))) r w') :
    w'.sockets = (w.sockets.insert e).2 ∧ w'.host = w.host ∧
      ∀ fd, w'.bound fd = if fd = w.sockets.next then w.socketOf e.rawFd else w.bound fd := by
  obtain ⟨hr, ha, hhost⟩ := step_appState h
  refine ⟨congrArg AppState.sockets ha, hhost, ?_⟩
  intro fd
  have hnext : r.1 = w.sockets.next := congrArg Prod.fst hr
  rw [World.bound, h.2, ← hnext]
  rfl

/-- A call of libc changes the kernel only. -/
theorem step_libc {c : Net.Cmd} {r : c.Resp} (h : threads w (.inr (.inr c)) r w') :
    kernel w.host c r w'.host ∧ w'.sockets = w.sockets ∧ w'.bound = w.bound := by
  obtain ⟨⟨⟨hkernel, ha⟩, -⟩, hbound⟩ := h
  exact ⟨hkernel, congrArg AppState.sockets ha, hbound⟩

/-- A step that changes neither the kernel's numbers nor the bindings nor the table. -/
theorem step_libc_of_host_eq {c : Net.Cmd} {r : c.Resp} (h : threads w (.inr (.inr c)) r w') (hhost : w'.host = w.host) :
    w' = w := by
  obtain ⟨⟨⟨-, ha⟩, -⟩, hbound⟩ := h
  exact world_eq (Prod.ext ha hhost) hbound

end

/-! ### The invariant -/

/-- A job of a thread. -/
abbrev ThreadJob : Type := Job Sockets SocketImport Int32 World

/-- The number belongs to the import. -/
def Owns (raw : Int32) : Phase → Prop
  | .copied _ => False
  | .made x => raw = x
  | .taken x => raw = x
  | .done => False

/-- The number is open, and is of the socket that the guest fd was bound to in the earlier world. -/
def IsBoundTo (w : World) (raw : Int32) (v : World) (fd : Int32) : Prop :=
  ∃ id, v.bound fd = some id ∧ w.socketOf raw = some id

/-- The table, the numbers and the bindings agree. -/
structure WorldInv (w : World) : Prop where
  /-- The number of an entry is of the socket its guest fd is bound to. -/
  entry : ∀ fd socket, w.sockets.find fd = some socket → IsBoundTo w socket.rawFd w fd
  /-- No two guest fds are bound to one socket. -/
  boundInj : ∀ fd gd id, w.bound fd = some id → w.bound gd = some id → fd = gd
  /-- No two numbers are of one socket. -/
  socketInj : ∀ x y id, w.socketOf x = some id → w.socketOf y = some id → x = y
  /-- The next socket is a new one. -/
  socketLt : ∀ x id, w.socketOf x = some id → id < w.host.made
  boundLt : ∀ fd id, w.bound fd = some id → id < w.host.made

/-- What a job in a phase knows about the world. -/
structure JobInv (w : World) (j : ThreadJob) (f : Phase) : Prop where
  obeys : j.rest.Obeys numbers (fun _ _ => True) f
  /-- Its own number stays open. -/
  owned : ∀ raw, Owns raw f → w.socketOf raw ≠ none
  /-- Its own number is none that it copied. -/
  copiedNe : ∀ raw, Owns raw f → ∀ fd socket v, Copied j fd socket v → socket.rawFd ≠ raw
  copiedMem : ∀ raws, f = .copied raws → ∀ fd socket v, Copied j fd socket v → socket.rawFd ∈ raws
  /-- No guest fd is bound to a socket that is not in the table yet. -/
  unbound : ∀ raw id fd, f = .made raw → w.socketOf raw = some id → w.bound fd ≠ some id
  /-- What it took out of the table is its own, until it is closed. -/
  tookOut : ∀ fd socket v, TookOut j fd socket v →
    f = .done ∨ f = .taken socket.rawFd ∧ IsBoundTo w socket.rawFd v fd
  /-- A number that it copied and may still use is closed or as it was. -/
  current : ∀ fd socket v, Copied j fd socket v →
    j.rest.Only (fun c => ¬Names socket.rawFd c) ∨ w.socketOf socket.rawFd = none ∨ IsBoundTo w socket.rawFd v fd

/-- The invariant of the threads, with the phase of each. -/
structure Inv {ι : Type} (phase : ι → Phase) (P : Threads ι) : Prop where
  world : WorldInv P.state
  job : ∀ i j, P.job i = some j → JobInv P.state j (phase i)
  /-- A number that belongs to an import is not in the table. -/
  notInTable : ∀ i j raw, P.job i = some j → Owns raw (phase i) →
    ∀ fd socket, P.state.sockets.find fd = some socket → socket.rawFd ≠ raw
  /-- It belongs to no other import. -/
  notOthers : ∀ i j raw, P.job i = some j → Owns raw (phase i) →
    ∀ i' j', P.job i' = some j' → Owns raw (phase i') → i' = i

/-! ### The job of the thread that steps -/

section
variable {w w' : World} {call : SocketImport} {past : List (Issued Sockets World)} {c : Sockets.Cmd}
  {k : Sockets.Resp c → Prog Sockets Int32} {r : Sockets.Resp c} {f : Phase}

/-- What a job has copied, after one more answer. -/
theorem copied_snoc {x : Issued Sockets World} {p q : Prog Sockets Int32} {fd : Int32} {socket : HostSocket} {v : World} :
    Copied ⟨call, past ++ [x], p⟩ fd socket v ↔
      Copied ⟨call, past, q⟩ fd socket v ∨ x = ⟨v, .inr (.inl (.sockets (.get fd))), some socket⟩ := by
  unfold Copied
  rw [List.mem_append, List.mem_singleton]
  exact or_congr_right eq_comm

/-- What a job has taken out, after one more answer. -/
theorem tookOut_snoc {x : Issued Sockets World} {p q : Prog Sockets Int32} {fd : Int32} {socket : HostSocket} {v : World} :
    TookOut ⟨call, past ++ [x], p⟩ fd socket v ↔
      TookOut ⟨call, past, q⟩ fd socket v ∨ x = ⟨v, .inr (.inl (.sockets (.remove fd))), some socket⟩ := by
  unfold TookOut
  rw [List.mem_append, List.mem_singleton]
  exact or_congr_right eq_comm

/-- The command finds no entry in the table. -/
def FindsNothing (x : Issued Sockets World) : Prop :=
  ∀ fd socket v, x ≠ ⟨v, .inr (.inl (.sockets (.get fd))), some socket⟩ ∧
    x ≠ ⟨v, .inr (.inl (.sockets (.remove fd))), some socket⟩

/-- A step that finds nothing and changes neither the phase nor the world. -/
theorem JobInv.idle (h : JobInv w ⟨call, past, .call c k⟩ f) (hnext : numbers.next f c r = f)
    (hfinds : FindsNothing ⟨w, c, r⟩) : JobInv w ⟨call, past ++ [⟨w, c, r⟩], k r⟩ f := by
  have hcopied {fd : Int32} {socket : HostSocket} {v : World}
      (hc : Copied ⟨call, past ++ [⟨w, c, r⟩], k r⟩ fd socket v) : Copied ⟨call, past, .call c k⟩ fd socket v := by
    rcases copied_snoc.mp hc with hc | hx
    · exact hc
    · exact absurd hx (hfinds fd socket v).1
  refine ⟨?_, h.owned, ?_, ?_, h.unbound, ?_, ?_⟩
  · have hrest := h.obeys.2 r trivial
    rw [hnext] at hrest
    exact hrest
  · intro raw hraw fd socket v hc
    exact h.copiedNe raw hraw fd socket v (hcopied hc)
  · intro raws hraws fd socket v hc
    exact h.copiedMem raws hraws fd socket v (hcopied hc)
  · intro fd socket v ht
    rcases tookOut_snoc.mp ht with ht | hx
    · exact h.tookOut fd socket v ht
    · exact absurd hx (hfinds fd socket v).2
  · intro fd socket v hc
    refine (h.current fd socket v (hcopied hc)).imp_left ?_
    exact fun honly => honly.2 r

end

section
variable {w w' : World} {call : SocketImport} {past : List (Issued Sockets World)} {f : Phase}

/-- The import copies an entry. -/
theorem JobInv.get {fd : Int32} {socket : HostSocket} {k : Option HostSocket → Prog Sockets Int32} (hw : WorldInv w)
    (h : JobInv w ⟨call, past, .call (.inr (.inl (.sockets (.get fd)))) k⟩ f) (hfind : w.sockets.find fd = some socket) :
    ∃ raws, JobInv w ⟨call, past ++ [⟨w, .inr (.inl (.sockets (.get fd))), some socket⟩], k (some socket)⟩ (.copied raws) := by
  obtain ⟨raws, rfl⟩ := h.obeys.1
  refine ⟨socket.rawFd :: raws, h.obeys.2 (some socket) trivial, nofun, nofun, ?_, nofun, ?_, ?_⟩
  · intro raws' hraws gd socket' v hc
    cases hraws
    rcases copied_snoc.mp hc with hc | hx
    · exact List.mem_cons_of_mem _ (h.copiedMem raws rfl gd socket' v hc)
    · cases hx
      exact List.mem_cons_self
  · intro gd socket' v ht
    rcases tookOut_snoc.mp ht with ht | hx
    · rcases h.tookOut gd socket' v ht with hf | ⟨hf, -⟩ <;> cases hf
    · cases hx
  · intro gd socket' v hc
    rcases copied_snoc.mp hc with hc | hx
    · exact (h.current gd socket' v hc).imp_left fun honly => honly.2 (some socket)
    · cases hx
      exact .inr (.inr (hw.entry fd socket hfind))

/-- The import takes an entry out of the table. -/
theorem JobInv.remove {fd : Int32} {socket : HostSocket} {k : Option HostSocket → Prog Sockets Int32} (hw : WorldInv w)
    (h : JobInv w ⟨call, past, .call (.inr (.inl (.sockets (.remove fd)))) k⟩ f) (hfind : w.sockets.find fd = some socket)
    (hhost : w'.host = w.host) :
    JobInv w' ⟨call, past ++ [⟨w, .inr (.inl (.sockets (.remove fd))), some socket⟩], k (some socket)⟩
      (.taken socket.rawFd) := by
  obtain rfl : f = .copied [] := h.obeys.1
  have hentry : IsBoundTo w' socket.rawFd w fd := by
    obtain ⟨id, hbound, hsocket⟩ := hw.entry fd socket hfind
    refine ⟨id, hbound, ?_⟩
    rw [World.socketOf, hhost]
    exact hsocket
  -- nothing was copied before
  have hnone (gd : Int32) (socket' : HostSocket) (v : World) : ¬Copied ⟨call,
      past ++ [⟨w, .inr (.inl (.sockets (.remove fd))), some socket⟩], k (some socket)⟩ gd socket' v := by
    intro hc
    rcases copied_snoc.mp hc with hc | hx
    · exact List.not_mem_nil (h.copiedMem [] rfl gd socket' v hc)
    · cases hx
  refine ⟨h.obeys.2 (some socket) trivial, ?_, ?_, nofun, nofun, ?_, ?_⟩
  · intro raw hraw
    obtain rfl : raw = socket.rawFd := hraw
    obtain ⟨id, -, hsocket⟩ := hentry
    rw [hsocket]
    nofun
  · intro raw hraw gd socket' v hc
    exact absurd hc (hnone gd socket' v)
  · intro gd socket' v ht
    rcases tookOut_snoc.mp ht with ht | hx
    · rcases h.tookOut gd socket' v ht with hf | ⟨hf, -⟩ <;> cases hf
    · cases hx
      exact .inr ⟨rfl, hentry⟩
  · intro gd socket' v hc
    exact absurd hc (hnone gd socket' v)

/-- The import gives its number up: to the table, or by closing it. The numbers it copied before are others. -/
theorem JobInv.giveUp {c : Sockets.Cmd} {k : Sockets.Resp c → Prog Sockets Int32} {r : Sockets.Resp c} {raw : Int32}
    (h : JobInv w ⟨call, past, .call c k⟩ f) (hown : Owns raw f) (hnext : numbers.next f c r = .done)
    (hfinds : FindsNothing ⟨w, c, r⟩) (hothers : ∀ x, x ≠ raw → w'.socketOf x = w.socketOf x) :
    JobInv w' ⟨call, past ++ [⟨w, c, r⟩], k r⟩ .done := by
  refine ⟨?_, nofun, nofun, nofun, nofun, fun _ _ _ _ => .inl rfl, ?_⟩
  · have hrest := h.obeys.2 r trivial
    rw [hnext] at hrest
    exact hrest
  · intro fd socket v hc
    have hold : Copied ⟨call, past, .call c k⟩ fd socket v := by
      rcases copied_snoc.mp hc with hc | hx
      · exact hc
      · exact absurd hx (hfinds fd socket v).1
    have hsame := hothers _ (h.copiedNe raw hown fd socket v hold)
    rcases h.current fd socket v hold with honly | hclosed | ⟨id, hbound, hsocket⟩
    · exact .inl (honly.2 r)
    · exact .inr (.inl (hsame.trans hclosed))
    · exact .inr (.inr ⟨id, hbound, hsame.trans hsocket⟩)

/-- The import makes a socket. The numbers it copied before are open, so they are others. -/
theorem JobInv.make {c : Net.Cmd} {k : c.Resp → Prog Sockets Int32} {r : c.Resp} {raw : Int32} (hw : WorldInv w)
    (h : JobInv w ⟨call, past, .call (.inr (.inr c)) k⟩ f) (hmade : madeBy c r = some raw) (hfree : w.socketOf raw = none)
    (hopen : ∀ x ∈ named c, w.socketOf x ≠ none) (hhost : w'.host = w.host.openRaw raw) (hbound : w'.bound = w.bound) :
    JobInv w' ⟨call, past ++ [⟨w, .inr (.inr c), r⟩], k r⟩ (.made raw) := by
  obtain ⟨raws, rfl, hraws, hnext⟩ : ∃ raws, f = .copied raws ∧ (∀ x ∈ raws, x ∈ named c) ∧
      numbers.next f (.inr (.inr c)) r = .made raw := by
    cases c with
    | socket domain ty protocol =>
      obtain rfl : f = .copied [] := h.obeys.1
      exact ⟨[], rfl, List.forall_mem_nil _, by simp only [numbers, hmade]⟩
    | accept x addrLen =>
      obtain rfl : f = .copied [x] := h.obeys.1
      exact ⟨[x], rfl, fun _ hx => hx, by simp only [numbers, hmade]⟩
    | _ => cases hmade
  have hsocket (x : Int32) : w'.socketOf x = if x = raw then some w.host.made else w.socketOf x := by
    rw [World.socketOf, hhost]
    rfl
  have hold {fd : Int32} {socket : HostSocket} {v : World}
      (hc : Copied ⟨call, past ++ [⟨w, .inr (.inr c), r⟩], k r⟩ fd socket v) :
      Copied ⟨call, past, .call (.inr (.inr c)) k⟩ fd socket v ∧ socket.rawFd ≠ raw := by
    rcases copied_snoc.mp hc with hc | hx
    · refine ⟨hc, fun heq => ?_⟩
      rw [← heq] at hfree
      exact hopen _ (hraws _ (h.copiedMem raws rfl fd socket v hc)) hfree
    · cases hx
  refine ⟨?_, ?_, ?_, ?_, ?_, ?_, ?_⟩
  · have hrest := h.obeys.2 r trivial
    rw [hnext] at hrest
    exact hrest
  · intro x hx
    obtain rfl : x = raw := hx
    rw [hsocket, if_pos rfl]
    intro h
    cases h
  · intro x hx fd socket v hc
    obtain rfl : x = raw := hx
    exact (hold hc).2
  · intro raws' hcopied
    cases hcopied
  · intro x id fd hx hid hfd
    cases hx
    rw [hsocket, if_pos rfl] at hid
    rw [hbound] at hfd
    cases hid
    exact absurd (hw.boundLt fd _ hfd) (Nat.lt_irrefl _)
  · intro fd socket v ht
    rcases tookOut_snoc.mp ht with ht | hx
    · rcases h.tookOut fd socket v ht with hf | ⟨hf, -⟩ <;> cases hf
    · cases hx
  · intro fd socket v hc
    obtain ⟨hc, hne⟩ := hold hc
    unfold IsBoundTo
    rw [hsocket, if_neg hne]
    exact (h.current fd socket v hc).imp_left fun honly => honly.2 r

/-! ### The jobs of the other threads -/

/-- The step of another thread leaves the job what it knows. -/
structure Keeps (w w' : World) (j : ThreadJob) (f : Phase) : Prop where
  owned : ∀ raw, Owns raw f → w'.socketOf raw = w.socketOf raw
  bound : ∀ raw id fd, f = .made raw → w.socketOf raw = some id → w'.bound fd = some id → w.bound fd = some id
  copied : ∀ fd socket v, Copied j fd socket v → j.rest.Only (fun c => ¬Names socket.rawFd c) ∨
    w'.socketOf socket.rawFd = none ∨ w'.socketOf socket.rawFd = w.socketOf socket.rawFd

/-- A step that changes neither the numbers nor the bindings. -/
theorem Keeps.of_eq {j : ThreadJob} (hhost : w'.host = w.host) (hbound : w'.bound = w.bound) : Keeps w w' j f := by
  have hsame (x : Int32) : w'.socketOf x = w.socketOf x := by rw [World.socketOf, hhost]; rfl
  refine ⟨fun raw _ => hsame raw, ?_, fun _ socket _ _ => .inr (.inr (hsame socket.rawFd))⟩
  intro raw id fd _ _ hfd
  rw [hbound] at hfd
  exact hfd

/-- What holds of a job stays, if what it rests on does. -/
theorem JobInv.keep {j : ThreadJob} (h : JobInv w j f) (hkeep : Keeps w w' j f) : JobInv w' j f := by
  refine ⟨h.obeys, ?_, h.copiedNe, h.copiedMem, ?_, ?_, ?_⟩
  · intro raw hraw
    rw [hkeep.owned raw hraw]
    exact h.owned raw hraw
  · intro raw id fd hf hid hfd
    have hsame := hkeep.owned raw (by rw [hf]; exact rfl)
    rw [hsame] at hid
    exact h.unbound raw id fd hf hid (hkeep.bound raw id fd hf hid hfd)
  · intro fd socket v ht
    refine (h.tookOut fd socket v ht).imp_right ?_
    rintro ⟨hf, id, hbound, hsocket⟩
    refine ⟨hf, id, hbound, ?_⟩
    rw [hkeep.owned socket.rawFd (by rw [hf]; exact rfl)]
    exact hsocket
  · intro fd socket v hc
    rcases hkeep.copied fd socket v hc with honly | hclosed | hsame
    · exact .inl honly
    · exact .inr (.inl hclosed)
    · unfold IsBoundTo
      rw [hsame]
      exact h.current fd socket v hc

/-! ### The world -/

/-- After a removal the invariant of the world holds, ... -/
theorem WorldInv.remove {fd : Int32} (h : WorldInv w) (hsockets : w'.sockets = w.sockets.remove fd) (hhost : w'.host = w.host)
    (hbound : w'.bound = w.bound) : WorldInv w' := by
  have hsame : w'.socketOf = w.socketOf := by funext x; rw [World.socketOf, hhost]; rfl
  refine ⟨?_, ?_, ?_, ?_, ?_⟩
  · intro gd socket hgd
    rw [hsockets, FdTable.find_remove] at hgd
    split at hgd
    · cases hgd
    · unfold IsBoundTo
      rw [hbound, hsame]
      exact h.entry gd socket hgd
  · rw [hbound]
    exact h.boundInj
  · rw [hsame]
    exact h.socketInj
  · rw [hsame, hhost]
    exact h.socketLt
  · rw [hbound, hhost]
    exact h.boundLt

/-- ... after an insertion of a socket that no fd is bound to, ... -/
theorem WorldInv.insert {e : HostSocket} {id : Nat} (h : WorldInv w) (hsockets : w'.sockets = (w.sockets.insert e).2)
    (hhost : w'.host = w.host)
    (hbound : ∀ fd, w'.bound fd = if fd = w.sockets.next then w.socketOf e.rawFd else w.bound fd)
    (hid : w.socketOf e.rawFd = some id) (hunbound : ∀ fd, w.bound fd ≠ some id) : WorldInv w' := by
  have hsame : w'.socketOf = w.socketOf := by funext x; rw [World.socketOf, hhost]; rfl
  refine ⟨?_, ?_, ?_, ?_, ?_⟩
  · intro fd socket hfd
    rw [hsockets, FdTable.find_insert] at hfd
    unfold IsBoundTo
    rw [hbound, hsame]
    split at hfd
    · rename_i hnext
      cases hfd
      rw [if_pos hnext]
      exact ⟨id, hid, hid⟩
    · rename_i hnext
      rw [if_neg hnext]
      exact h.entry fd socket hfd
  · intro fd gd id' hfd hgd
    rw [hbound, hid] at hfd hgd
    split at hfd <;> split at hgd
    · rename_i hf hg
      rw [hf, hg]
    · cases hfd
      exact absurd hgd (hunbound gd)
    · cases hgd
      exact absurd hfd (hunbound fd)
    · exact h.boundInj fd gd id' hfd hgd
  · rw [hsame]
    exact h.socketInj
  · rw [hsame, hhost]
    exact h.socketLt
  · intro fd id' hfd
    rw [hhost]
    rw [hbound] at hfd
    split at hfd
    · exact h.socketLt _ id' hfd
    · exact h.boundLt fd id' hfd

/-- ... after a socket is made under a number that is not in use, ... -/
theorem WorldInv.make {raw : Int32} (h : WorldInv w) (hsockets : w'.sockets = w.sockets)
    (hhost : w'.host = w.host.openRaw raw) (hbound : w'.bound = w.bound) (hfree : w.socketOf raw = none) : WorldInv w' := by
  have hsocket (x : Int32) : w'.socketOf x = if x = raw then some w.host.made else w.socketOf x := by
    rw [World.socketOf, hhost]
    rfl
  have hmade : w'.host.made = w.host.made + 1 := by rw [hhost]; rfl
  refine ⟨?_, ?_, ?_, ?_, ?_⟩
  · intro fd socket hfd
    rw [hsockets] at hfd
    obtain ⟨id, hid, hopen⟩ := h.entry fd socket hfd
    have hne : socket.rawFd ≠ raw := by
      intro heq
      rw [heq, hfree] at hopen
      cases hopen
    refine ⟨id, by rw [hbound]; exact hid, ?_⟩
    rw [hsocket, if_neg hne]
    exact hopen
  · rw [hbound]
    exact h.boundInj
  · intro x y id hx hy
    rw [hsocket] at hx hy
    split at hx <;> split at hy
    · rename_i hxr hyr
      rw [hxr, hyr]
    · cases hx
      exact absurd (h.socketLt y _ hy) (Nat.lt_irrefl _)
    · cases hy
      exact absurd (h.socketLt x _ hx) (Nat.lt_irrefl _)
    · exact h.socketInj x y id hx hy
  · intro x id hx
    rw [hsocket] at hx
    rw [hmade]
    split at hx
    · cases hx
      exact Nat.lt_succ_self _
    · exact Nat.lt_succ_of_lt (h.socketLt x id hx)
  · intro fd id hfd
    rw [hbound] at hfd
    rw [hmade]
    exact Nat.lt_succ_of_lt (h.boundLt fd id hfd)

/-- ... and after a number is closed that is not in the table. -/
theorem WorldInv.close {raw : Int32} (h : WorldInv w) (hsockets : w'.sockets = w.sockets)
    (hhost : w'.host = w.host.closeRaw raw) (hbound : w'.bound = w.bound)
    (htable : ∀ fd socket, w.sockets.find fd = some socket → socket.rawFd ≠ raw) : WorldInv w' := by
  have hsocket (x : Int32) : w'.socketOf x = if x = raw then none else w.socketOf x := by
    rw [World.socketOf, hhost]
    rfl
  have hopen {x : Int32} {id : Nat} (hx : w'.socketOf x = some id) : w.socketOf x = some id := by
    rw [hsocket] at hx
    split at hx
    · cases hx
    · exact hx
  have hmade : w'.host.made = w.host.made := by rw [hhost]; rfl
  refine ⟨?_, ?_, ?_, ?_, ?_⟩
  · intro fd socket hfd
    rw [hsockets] at hfd
    obtain ⟨id, hid, hsock⟩ := h.entry fd socket hfd
    refine ⟨id, by rw [hbound]; exact hid, ?_⟩
    rw [hsocket, if_neg (htable fd socket hfd)]
    exact hsock
  · rw [hbound]
    exact h.boundInj
  · intro x y id hx hy
    exact h.socketInj x y id (hopen hx) (hopen hy)
  · intro x id hx
    rw [hmade]
    exact h.socketLt x id (hopen hx)
  · rw [hbound, hmade]
    exact h.boundLt

end

/-! ### The pool -/

/-- The kernel makes a socket under a free number, for a call on open ones; or it frees a number; or its numbers stay. -/
theorem kernel_cases {k k' : Kernel} {c : Net.Cmd} {r : c.Resp} (h : kernel k c r k') :
    (∃ raw, madeBy c r = some raw ∧ k.socketOf raw = none ∧ k' = k.openRaw raw ∧ ∀ x ∈ named c, k.socketOf x ≠ none) ∨
    (∃ raw, c = .close raw ∧ k' = k.closeRaw raw) ∨ (madeBy c r = none ∧ (∀ raw, c ≠ .close raw) ∧ k' = k) := by
  obtain ⟨hrefused, hstep⟩ := h
  cases hmade : madeBy c r with
  | some raw =>
    rw [hmade] at hstep
    refine .inl ⟨raw, rfl, hstep.1, hstep.2, ?_⟩
    intro x hx hclosed
    cases c with
    | socket => cases hx
    | accept y addrLen =>
      have hfailed : r.rc < 0 := of_decide_eq_true (hrefused x hx hclosed)
      simp only [madeBy, hfailed, if_true] at hmade
      cases hmade
    | _ => cases hmade
  | none =>
    rw [hmade] at hstep
    right
    cases c with
    | close raw => exact .inl ⟨raw, rfl, hstep⟩
    | _ => exact .inr ⟨rfl, by simp, hstep⟩

section
variable {ι : Type} [DecidableEq ι] {phase : ι → Phase} {P : Threads ι} {i : ι}

/-- The pool after a step of one thread. -/
theorem Inv.advance {w' : World} {j' : ThreadJob} {f' : Phase} (h : Inv phase P) (hworld : WorldInv w') (hjob : JobInv w' j' f')
    (hothers : ∀ i' j, i' ≠ i → P.job i' = some j → Keeps P.state w' j (phase i'))
    (htable : ∀ i' j raw, i' ≠ i → P.job i' = some j → Owns raw (phase i') →
      ∀ fd socket, w'.sockets.find fd = some socket → socket.rawFd ≠ raw)
    (hown : ∀ raw, Owns raw f' → (∀ fd socket, w'.sockets.find fd = some socket → socket.rawFd ≠ raw) ∧
      ∀ i' j, i' ≠ i → P.job i' = some j → ¬Owns raw (phase i')) :
    Inv (Function.update phase i f') { P.setJob i (some j') with state := w' } := by
  have hcases {i' : ι} {j : ThreadJob} (hj : (P.setJob i (some j')).job i' = some j) :
      (i' = i ∧ j = j' ∧ Function.update phase i f' i' = f') ∨
        (i' ≠ i ∧ P.job i' = some j ∧ Function.update phase i f' i' = phase i') := Pool.setJob_update_cases hj
  refine ⟨hworld, ?_, ?_, ?_⟩
  · intro i' j hj
    rcases hcases hj with ⟨rfl, rfl, hf⟩ | ⟨hi, hj, hf⟩
    · rw [hf]
      exact hjob
    · rw [hf]
      exact (h.job i' j hj).keep (hothers i' j hi hj)
  · intro i' j raw hj hraw
    rcases hcases hj with ⟨rfl, rfl, hf⟩ | ⟨hi, hj, hf⟩
    · rw [hf] at hraw
      exact (hown raw hraw).1
    · rw [hf] at hraw
      exact htable i' j raw hi hj hraw
  · intro i' j raw hj hraw i'' j'' hj'' hraw''
    rcases hcases hj with ⟨rfl, rfl, hf⟩ | ⟨hi, hold, hf⟩ <;> rcases hcases hj'' with ⟨rfl, rfl, hf''⟩ | ⟨hi'', hold'', hf''⟩
    · rfl
    · rw [hf] at hraw
      rw [hf''] at hraw''
      exact absurd hraw'' ((hown raw hraw).2 i'' j'' hi'' hold'')
    · rw [hf] at hraw
      rw [hf''] at hraw''
      exact absurd hraw ((hown raw hraw'').2 i' j hi hold)
    · rw [hf] at hraw
      rw [hf''] at hraw''
      exact h.notOthers i' j raw hold hraw i'' j'' hold'' hraw''

/-- A step that changes nothing but the job, which stays in a phase that owns no more than before. -/
theorem Inv.stay {j j' : ThreadJob} {f' : Phase} (h : Inv phase P) (hj : P.job i = some j) (hjob : JobInv P.state j' f')
    (hown : ∀ raw, Owns raw f' → Owns raw (phase i)) :
    Inv (Function.update phase i f') { P.setJob i (some j') with state := P.state } := by
  refine h.advance h.world hjob (fun _ _ _ _ => .of_eq rfl rfl) ?_ ?_
  · intro i' j'' raw _ hj'' hraw
    exact h.notInTable i' j'' raw hj'' hraw
  · intro raw hraw
    refine ⟨h.notInTable i j raw hj (hown raw hraw), ?_⟩
    intro i' j'' hi hj'' hraw'
    exact hi (h.notOthers i j raw hj (hown raw hraw) i' j'' hj'' hraw')

variable {w' : World} {call : SocketImport} {past : List (Issued Sockets World)}

/-- A step that finds nothing and changes neither the phase nor the world. -/
theorem Inv.idle {c : Sockets.Cmd} {k : Sockets.Resp c → Prog Sockets Int32} {r : Sockets.Resp c} (h : Inv phase P)
    (hj : P.job i = some ⟨call, past, .call c k⟩) (hw : w' = P.state) (hnext : numbers.next (phase i) c r = phase i)
    (hfinds : FindsNothing ⟨P.state, c, r⟩) :
    ∃ f', Inv (Function.update phase i f') { P.setJob i (some ⟨call, past ++ [⟨P.state, c, r⟩], k r⟩) with state := w' } := by
  subst hw
  exact ⟨phase i, h.stay hj ((h.job i _ hj).idle hnext hfinds) fun _ hraw => hraw⟩

/-- A lookup keeps the invariant, ... -/
theorem Inv.get {fd : Int32} {k : Option HostSocket → Prog Sockets Int32} {r : Option HostSocket} (h : Inv phase P)
    (hj : P.job i = some ⟨call, past, .call (.inr (.inl (.sockets (.get fd)))) k⟩)
    (hstep : threads P.state (.inr (.inl (.sockets (.get fd)))) r w') :
    ∃ f', Inv (Function.update phase i f')
      { P.setJob i (some ⟨call, past ++ [⟨P.state, .inr (.inl (.sockets (.get fd))), r⟩], k r⟩) with state := w' } := by
  obtain ⟨hr, rfl⟩ := step_get hstep
  cases r with
  | none => exact h.idle hj rfl rfl fun _ _ _ => ⟨nofun, nofun⟩
  | some socket =>
    obtain ⟨raws, hjob⟩ := (h.job i _ hj).get h.world hr.symm
    exact ⟨.copied raws, h.stay hj hjob nofun⟩

/-- ... a removal does, ... -/
theorem Inv.remove {fd : Int32} {k : Option HostSocket → Prog Sockets Int32} {r : Option HostSocket} (h : Inv phase P)
    (hj : P.job i = some ⟨call, past, .call (.inr (.inl (.sockets (.remove fd)))) k⟩)
    (hstep : threads P.state (.inr (.inl (.sockets (.remove fd)))) r w') :
    ∃ f', Inv (Function.update phase i f')
      { P.setJob i (some ⟨call, past ++ [⟨P.state, .inr (.inl (.sockets (.remove fd))), r⟩], k r⟩) with state := w' } := by
  obtain ⟨hr, hsockets, hhost, hbound⟩ := step_remove hstep
  cases r with
  | none =>
    have hsame : w' = P.state := by
      have hrest : w'.1.2.1 = P.state.1.2.1 := by
        obtain ⟨-, ha, -⟩ := step_appState hstep
        rw [ha]
        have hnone : P.state.1.2.1.sockets.remove fd = P.state.1.2.1.sockets := FdTable.remove_of_find_none hr.symm
        simp only [AppState.handle, FdTable.handle, hnone]
      exact world_eq (Prod.ext hrest hhost) hbound
    exact h.idle hj hsame rfl fun _ _ _ => ⟨nofun, nofun⟩
  | some socket =>
    have hfind : P.state.sockets.find fd = some socket := hr.symm
    -- what is still in the table was there before, under another guest fd
    have hleft {gd : Int32} {socket' : HostSocket} (hgd : w'.sockets.find gd = some socket') :
        gd ≠ fd ∧ P.state.sockets.find gd = some socket' := by
      rw [hsockets, FdTable.find_remove] at hgd
      split at hgd
      · cases hgd
      · rename_i hne
        exact ⟨hne, hgd⟩
    refine ⟨.taken socket.rawFd, h.advance (h.world.remove hsockets hhost hbound)
      ((h.job i _ hj).remove h.world hfind hhost) (fun _ _ _ _ => .of_eq hhost hbound) ?_ ?_⟩
    · intro i' j raw _ hj' hraw gd socket' hgd
      exact h.notInTable i' j raw hj' hraw gd socket' (hleft hgd).2
    · intro raw hraw
      obtain rfl : raw = socket.rawFd := hraw
      obtain ⟨id, hid, hopen⟩ := h.world.entry fd socket hfind
      refine ⟨?_, ?_⟩
      · intro gd socket' hgd heq
        obtain ⟨hne, hgd⟩ := hleft hgd
        obtain ⟨id', hid', hopen'⟩ := h.world.entry gd socket' hgd
        rw [heq, hopen] at hopen'
        cases hopen'
        exact hne (h.world.boundInj gd fd id hid' hid)
      · intro i' j _ hj' hraw'
        exact h.notInTable i' j _ hj' hraw' fd socket hfind rfl

/-- ... an insertion, ... -/
theorem Inv.insert {e : HostSocket} {k : Int32 × Option HostSocket → Prog Sockets Int32} {r : Int32 × Option HostSocket}
    (h : Inv phase P) (hj : P.job i = some ⟨call, past, .call (.inr (.inl (.sockets (.insert e)))) k⟩)
    (hstep : threads P.state (.inr (.inl (.sockets (.insert e)))) r w') :
    ∃ f', Inv (Function.update phase i f')
      { P.setJob i (some ⟨call, past ++ [⟨P.state, .inr (.inl (.sockets (.insert e))), r⟩], k r⟩) with state := w' } := by
  obtain ⟨hsockets, hhost, hbound⟩ := step_insert hstep
  have hphase : phase i = .made e.rawFd := (h.job i _ hj).obeys.1
  have hown : Owns e.rawFd (phase i) := by rw [hphase]; exact rfl
  have hsame (x : Int32) : w'.socketOf x = P.state.socketOf x := by rw [World.socketOf, hhost]; rfl
  obtain ⟨id, hid⟩ := Option.ne_none_iff_exists'.mp ((h.job i _ hj).owned e.rawFd hown)
  have hunbound (fd : Int32) : P.state.bound fd ≠ some id := (h.job i _ hj).unbound e.rawFd id fd hphase hid
  refine ⟨.done, h.advance (h.world.insert hsockets hhost hbound hid hunbound)
    ((h.job i _ hj).giveUp hown rfl (fun _ _ _ => ⟨nofun, nofun⟩) fun x _ => hsame x) ?_ ?_ nofun⟩
  · intro i' j hi hj'
    refine ⟨fun raw _ => hsame raw, ?_, fun _ socket _ _ => .inr (.inr (hsame socket.rawFd))⟩
    intro raw id' fd hf hid' hfd
    rw [hbound] at hfd
    split at hfd
    · -- the socket of another import's own number has another number
      have hraw : raw = e.rawFd := h.world.socketInj raw e.rawFd id' hid' hfd
      exact absurd (h.notOthers i _ e.rawFd hj hown i' j hj' (by rw [hf]; exact hraw.symm)) hi
    · exact hfd
  · intro i' j raw hi hj' hraw fd socket hfd heq
    rw [hsockets, FdTable.find_insert] at hfd
    split at hfd
    · cases hfd
      subst heq
      exact hi (h.notOthers i _ _ hj hown i' j hj' hraw)
    · exact h.notInTable i' j raw hj' hraw fd socket hfd heq

/-- The kernel makes a socket, under a number that no other thread may still use. -/
theorem Inv.make {c : Net.Cmd} {k : c.Resp → Prog Sockets Int32} {r : c.Resp} {raw : Int32} (h : Inv phase P)
    (hj : P.job i = some ⟨call, past, .call (.inr (.inr c)) k⟩) (hsockets : w'.sockets = P.state.sockets)
    (hbound : w'.bound = P.state.bound) (hmade : madeBy c r = some raw) (hfree : P.state.socketOf raw = none)
    (hhost : w'.host = P.state.host.openRaw raw) (hopen : ∀ x ∈ named c, P.state.socketOf x ≠ none)
    (hguard : ∀ i' j fd socket v, i' ≠ i → P.job i' = some j → Copied j fd socket v → socket.rawFd = raw →
      j.rest.Only (fun c => ¬Names raw c)) :
    Inv (Function.update phase i (.made raw))
      { P.setJob i (some ⟨call, past ++ [⟨P.state, .inr (.inr c), r⟩], k r⟩) with state := w' } := by
  have hsame {x : Int32} (hx : x ≠ raw) : w'.socketOf x = P.state.socketOf x := by
    rw [World.socketOf, hhost, Kernel.socketOf_openRaw, if_neg hx]
    rfl
  have hfree' {x : Int32} (hx : P.state.socketOf x ≠ none) : x ≠ raw := by
    rintro rfl
    exact hx hfree
  refine h.advance (h.world.make hsockets hhost hbound hfree)
    ((h.job i _ hj).make h.world hmade hfree hopen hhost hbound) ?_ ?_ ?_
  · intro i' j hi hj'
    refine ⟨fun x hx => hsame (hfree' ((h.job i' j hj').owned x hx)), ?_, ?_⟩
    · intro x id fd _ _ hfd
      rw [hbound] at hfd
      exact hfd
    · intro fd socket v hc
      by_cases hraw : socket.rawFd = raw
      · left
        rw [hraw]
        exact hguard i' j fd socket v hi hj' hc hraw
      · exact .inr (.inr (hsame hraw))
  · intro i' j x _ hj' hx
    rw [hsockets]
    exact h.notInTable i' j x hj' hx
  · intro x hx
    obtain rfl : x = raw := hx
    refine ⟨?_, ?_⟩
    · intro fd socket hfd
      rw [hsockets] at hfd
      obtain ⟨id, -, hid⟩ := h.world.entry fd socket hfd
      exact hfree' (by rw [hid]; nofun)
    · intro i' j _ hj' hown
      exact (h.job i' j hj').owned x hown hfree

/-- The owner of a number closes it. -/
theorem Inv.close {raw : Int32} {k : Int32 → Prog Sockets Int32} {r : Int32} (h : Inv phase P)
    (hj : P.job i = some ⟨call, past, .call (.inr (.inr (.close raw))) k⟩) (hsockets : w'.sockets = P.state.sockets)
    (hbound : w'.bound = P.state.bound) (hhost : w'.host = P.state.host.closeRaw raw) :
    Inv (Function.update phase i .done)
      { P.setJob i (some ⟨call, past ++ [⟨P.state, .inr (.inr (.close raw)), r⟩], k r⟩) with state := w' } := by
  have hown : Owns raw (phase i) := by
    have hallow : phase i = .made raw ∨ phase i = .taken raw := (h.job i _ hj).obeys.1
    rcases hallow with hf | hf <;> rw [hf] <;> exact rfl
  have hsocket (x : Int32) : w'.socketOf x = if x = raw then none else P.state.socketOf x := by
    rw [World.socketOf, hhost]
    rfl
  have hsame {x : Int32} (hx : x ≠ raw) : w'.socketOf x = P.state.socketOf x := by rw [hsocket, if_neg hx]
  refine h.advance (h.world.close hsockets hhost hbound (h.notInTable i _ raw hj hown))
    ((h.job i _ hj).giveUp hown rfl (fun _ _ _ => ⟨nofun, nofun⟩) fun x hx => hsame hx) ?_ ?_ nofun
  · intro i' j hi hj'
    refine ⟨?_, ?_, ?_⟩
    · intro x hx
      refine hsame ?_
      rintro rfl
      exact hi (h.notOthers i _ x hj hown i' j hj' hx)
    · intro x id fd _ _ hfd
      rw [hbound] at hfd
      exact hfd
    · intro fd socket v _
      by_cases hraw : socket.rawFd = raw
      · right
        left
        rw [hsocket, if_pos hraw]
      · exact .inr (.inr (hsame hraw))
  · intro i' j x _ hj' hx
    rw [hsockets]
    exact h.notInTable i' j x hj' hx

/-- A call that neither makes a socket nor closes one leaves the phase. -/
theorem next_of_plain {f : Phase} {c : Net.Cmd} {r : c.Resp} (hmade : madeBy c r = none) (hclose : ∀ raw, c ≠ .close raw) :
    numbers.next f (.inr (.inr c)) r = f := by
  cases c with
  | close raw => exact absurd rfl (hclose raw)
  | _ => simp only [numbers, hmade]

/-- ... and a call of libc, if no number is given out that another thread has copied and can still call on. -/
theorem Inv.libc {c : Net.Cmd} {k : c.Resp → Prog Sockets Int32} {r : c.Resp} (h : Inv phase P)
    (hj : P.job i = some ⟨call, past, .call (.inr (.inr c)) k⟩) (hstep : threads P.state (.inr (.inr c)) r w')
    (hguard : ∀ raw, madeBy c r = some raw → ∀ i' j fd socket v, i' ≠ i → P.job i' = some j → Copied j fd socket v →
      socket.rawFd = raw → j.rest.Only (fun c => ¬Names raw c)) :
    ∃ f', Inv (Function.update phase i f')
      { P.setJob i (some ⟨call, past ++ [⟨P.state, .inr (.inr c), r⟩], k r⟩) with state := w' } := by
  obtain ⟨hkernel, hsockets, hbound⟩ := step_libc hstep
  rcases kernel_cases hkernel with ⟨raw, hmade, hfree, hhost, hopen⟩ | ⟨raw, rfl, hhost⟩ | ⟨hmade, hclose, hhost⟩
  · exact ⟨.made raw, h.make hj hsockets hbound hmade hfree hhost hopen (hguard raw hmade)⟩
  · exact ⟨.done, h.close hj hsockets hbound hhost⟩
  · refine h.idle hj (step_libc_of_host_eq hstep hhost) (next_of_plain hmade hclose) ?_
    exact fun _ _ _ => ⟨nofun, nofun⟩

/-- A call ends. -/
theorem Inv.finish (h : Inv phase P) : Inv phase (P.setJob i none) := by
  have hold {i' : ι} {j : ThreadJob} (hj : (P.setJob i none).job i' = some j) : P.job i' = some j := by
    rcases Pool.setJob_cases hj with ⟨-, hnone⟩ | ⟨-, hold⟩
    · cases hnone
    · exact hold
  refine ⟨h.world, ?_, ?_, ?_⟩
  · intro i' j hj
    exact h.job i' j (hold hj)
  · intro i' j raw hj hraw
    exact h.notInTable i' j raw (hold hj) hraw
  · intro i' j raw hj hraw i'' j'' hj'' hraw''
    exact h.notOthers i' j raw (hold hj) hraw i'' j'' (hold hj'') hraw''

/-- Every step of the threads keeps the invariant, as long as the kernel does not reuse a copied number. -/
theorem Inv.step {lc : Libc} {a : Action Sockets SocketImport} {P' : Threads ι} (h : Inv phase P)
    (hguard : NoReuse ⟨P, i, a, P'⟩) (hstep : Pool.Step (prog lc) threads P i a P') : ∃ phase', Inv phase' P' := by
  cases hstep with
  | start call hnone =>
    refine ⟨Function.update phase i (.copied []), h.advance h.world ?_ (fun _ _ _ _ => .of_eq rfl rfl) ?_ nofun⟩
    · exact ⟨NumbersAux.orderly_prog lc call, nofun, nofun, nofun, nofun, nofun, nofun⟩
    · intro i' j raw _ hj' hraw
      exact h.notInTable i' j raw hj' hraw
  | @issue call past c k r w' hj hmachine =>
    have hissue : ∃ f', Inv (Function.update phase i f')
        { P.setJob i (some ⟨call, past ++ [⟨P.state, c, r⟩], k r⟩) with state := w' } := by
      match c, k, r, hj, hmachine, hguard with
      | .inl c, k, r, hj, hmachine, _ => exact h.idle hj (step_memory hmachine) rfl fun _ _ _ => ⟨nofun, nofun⟩
      | .inr (.inl .networkAllowed), k, r, hj, hmachine, _ =>
        exact h.idle hj (step_networkAllowed hmachine) rfl fun _ _ _ => ⟨nofun, nofun⟩
      | .inr (.inl (.sockets (.get fd))), k, r, hj, hmachine, _ => exact h.get hj hmachine
      | .inr (.inl (.sockets (.remove fd))), k, r, hj, hmachine, _ => exact h.remove hj hmachine
      | .inr (.inl (.sockets (.insert e))), k, r, hj, hmachine, _ => exact h.insert hj hmachine
      | .inr (.inr c), k, r, hj, hmachine, hguard =>
        exact h.libc hj hmachine fun raw hmade => hguard c r raw rfl hmade
    obtain ⟨f', hinv⟩ := hissue
    exact ⟨_, hinv⟩
  | finish hj => exact ⟨phase, h.finish⟩
  | abort hj => exact ⟨phase, h.finish⟩

/-- An import that has given its number up makes no more calls on numbers. -/
theorem not_named_of_done {c : Net.Cmd} {raw : Int32} (h : numbers.allows .done (.inr (.inr c))) : raw ∉ named c := by
  intro hraw
  cases c with
  | socket => cases h
  | accept => cases h
  | close => rcases h with h | h <;> cases h
  | _ => exact h raw hraw

/-- In a pool with the invariant, the next call of any thread acts on the socket of its guest fd. -/
theorem Inv.actsOnBound {lc : Libc} {a : Action Sockets SocketImport} {P' : Threads ι} (h : Inv phase P)
    (hstep : Pool.Step (prog lc) threads P i a P') : ActsOnBound ⟨P, i, a, P'⟩ := by
  intro c r j fd socket v haction hj hfound hnamed
  cases hstep with
  | start => cases haction
  | finish => cases haction
  | abort => cases haction
  | issue hjob hmachine =>
    cases haction
    obtain rfl := Option.some.inj (hjob.symm.trans hj)
    obtain ⟨hkernel, -, -⟩ := step_libc hmachine
    have hinv := h.job i _ hjob
    rcases hfound with hcopied | htook
    · rcases hinv.current fd socket v hcopied with honly | hclosed | hbound
      · exact absurd hnamed honly.1
      · exact .inr (hkernel.1 socket.rawFd hnamed hclosed)
      · exact .inl hbound
    · rcases hinv.tookOut fd socket v htook with hdone | ⟨-, hbound⟩
      · have hallow := hinv.obeys.1
        rw [hdone] at hallow
        exact absurd hnamed (not_named_of_done hallow)
      · exact .inl hbound

end

end IdentityAux

end WasmtimeMysql.Unix
