import WasmtimeMysql.Lemmas.Threads

/-!
# Which socket a call acts on

Every call that an import makes for a guest fd acts on the socket the guest fd was bound to, as long as the kernel does not reuse a
number that another thread has copied out of the table and may still use (`socket_identity`). Nothing in the code prevents it: the
data of a `send` can go to the socket of another guest fd (`socket_identity_lost`). The file module has no such window, since its
imports keep the mutex while they call the host.
-/

namespace WasmtimeMysql.Unix

open Effects

namespace IdentityAux

/-! ### A small kernel -/

/-- A kernel with the numbers 3 and 4, which gives out the lowest that is free. -/
def twoNumbers (k : Kernel) : (c : Net.Cmd) → Option (c.Resp × Kernel)
  | .socket .. =>
    if k.socketOf 3 = none then some (3, k.openRaw 3)
    else if k.socketOf 4 = none then some (4, k.openRaw 4)
    else none
  | .send raw buf _ => if k.socketOf raw = none then some (-1, k) else some (Int64.ofNat buf.length, k)
  | .close raw => if k.socketOf raw = none then some (-1, k.closeRaw raw) else some (0, k.closeRaw raw)
  | .lastOsError => some (some 9, k)
  | _ => none

theorem twoNumbers_allowed (k : Kernel) (c : Net.Cmd) (r : c.Resp) (k' : Kernel) (h : twoNumbers k c = some (r, k')) :
    kernel k c r k' := by
  cases c with
  | socket domain ty protocol =>
    unfold twoNumbers at h
    dsimp only at h
    split at h
    · rename_i hfree
      cases h
      exact ⟨nofun, hfree, rfl⟩
    · split at h
      · rename_i hfree
        cases h
        exact ⟨nofun, hfree, rfl⟩
      · cases h
  | send raw buf flags =>
    unfold twoNumbers at h
    dsimp only at h
    split at h
    · cases h
      exact ⟨fun _ _ _ => rfl, rfl⟩
    · rename_i hopen
      cases h
      refine ⟨?_, rfl⟩
      intro x hx hclosed
      cases List.mem_singleton.mp hx
      exact absurd hclosed hopen
  | close raw =>
    unfold twoNumbers at h
    dsimp only at h
    split at h
    · cases h
      exact ⟨fun _ _ _ => rfl, rfl⟩
    · rename_i hopen
      cases h
      refine ⟨?_, rfl⟩
      intro x hx hclosed
      cases List.mem_singleton.mp hx
      exact absurd hclosed hopen
  | lastOsError =>
    cases h
    exact ⟨nofun, rfl⟩
  | _ => cases h

/-- A guest memory in which every buffer holds one byte. -/
def memoryByte : (c : GuestMem.Cmd) → c.Resp
  | .readGuest .. => .ok [7]
  | .writeGuest .. => .ok ()
  | .readCstr _ => .ok []
  | .alloc _ => ()

/-- The threads over it, played. -/
def playing (w : World) : (c : Sockets.Cmd) → Option (Sockets.Resp c × World)
  | .inl c => some (memoryByte c, w)
  | .inr (.inl c) =>
    some ((w.1.2.1.handle Empty.elim c).1,
      (((), (w.1.2.1.handle Empty.elim c).2, w.1.2.2), noteBinding w.1 w.2 (.inr (.inl c)) (w.1.2.1.handle Empty.elim c).1))
  | .inr (.inr c) => (twoNumbers w.host c).map fun x => (x.1, (((), w.1.2.1, x.2), w.2))

theorem playing_allowed (w : World) (c : Sockets.Cmd) (r : Sockets.Resp c) (w' : World) (h : playing w c = some (r, w')) :
    threads w c r w' := by
  rcases c with c | c | c
  · cases h
    exact ⟨⟨trivial, rfl⟩, rfl⟩
  · cases h
    exact ⟨⟨⟨rfl, rfl⟩, rfl⟩, rfl⟩
  · obtain ⟨x, hx, heq⟩ := Option.map_eq_some_iff.mp h
    cases heq
    exact ⟨⟨⟨twoNumbers_allowed w.host c _ _ hx, rfl⟩, rfl⟩, rfl⟩

section
variable {ι : Type} [DecidableEq ι]

/-- What a schedule comes to. -/
def played (schedule : List (ι × Option SocketImport)) : List (Move Sockets ι SocketImport Int32 World) × Threads ι :=
  (Pool.play (prog linux) playing [] ⟨fun _ => none, World.start true⟩ schedule).getD ([], ⟨fun _ => none, World.start true⟩)

theorem played_run (schedule : List (ι × Option SocketImport)) :
    ThreadRun linux true (played schedule).1 (played schedule).2 := by
  unfold played
  cases hplay : Pool.play (prog linux) playing [] ⟨fun _ => none, World.start true⟩ schedule with
  | none => exact .nil
  | some r => exact Pool.Run.nil.play playing_allowed hplay

end

section
variable {ι : Type}

/-- A move that sends on a number its thread copied from the table for a guest fd that was bound to another socket. -/
def misses (m : Move Sockets ι SocketImport Int32 World) : Bool :=
  match m.action, m.before.job m.who with
  | .issue (.inr (.inr (.send raw buf flags))) rc, some j =>
    !failed (.send raw buf flags) rc && j.past.any fun
      | ⟨v, .inr (.inl (.sockets (.get fd))), some socket⟩ =>
        decide (socket.rawFd = raw) && decide (v.bound fd ≠ m.before.state.socketOf raw)
      | _ => false
  | _, _ => false

theorem not_actsOnBound_of_misses {m : Move Sockets ι SocketImport Int32 World} (h : misses m = true) : ¬ActsOnBound m := by
  intro hacts
  unfold misses at h
  split at h
  · rename_i raw buf flags rc j haction hjob
    obtain ⟨hsent, hpast⟩ := Bool.and_eq_true_iff.mp h
    obtain ⟨x, hx, hmiss⟩ := List.any_eq_true.mp hpast
    split at hmiss
    · rename_i v fd socket
      obtain ⟨hraw, hne⟩ := Bool.and_eq_true_iff.mp hmiss
      have hraw := of_decide_eq_true hraw
      have hne := of_decide_eq_true hne
      have hnamed : socket.rawFd ∈ named (.send raw buf flags) := List.mem_singleton.mpr hraw
      rcases hacts _ rc j fd socket v haction hjob (.inl hx) hnamed with ⟨id, hbound, hsocket⟩ | hrefused
      · rw [hraw] at hsocket
        exact hne (hbound.trans hsocket.symm)
      · have hfailed : failed (.send raw buf flags) rc = true := hrefused
        rw [hfailed] at hsent
        cases hsent
    · cases hmiss
  · cases h

/-- A job has not copied the number. -/
def clearOf (raw : Int32) (j : Job Sockets SocketImport Int32 World) : Bool :=
  j.past.all fun
    | ⟨_, .inr (.inl (.sockets (.get _))), some socket⟩ => socket.rawFd != raw
    | _ => true

theorem not_copied_of_clearOf {raw : Int32} {j : Job Sockets SocketImport Int32 World} (h : clearOf raw j = true) {fd : Int32}
    {socket : HostSocket} {w : World} (hcopied : Copied j fd socket w) : socket.rawFd ≠ raw := by
  have hclear := List.all_eq_true.mp h _ hcopied
  exact bne_iff_ne.mp hclear

/-- A move that makes no socket, or one whose number no other of two threads has copied. -/
def makesFresh (m : Move Sockets Bool SocketImport Int32 World) : Bool :=
  match m.action with
  | .issue (.inr (.inr c)) r => (madeBy c r).all fun raw => (m.before.job (!m.who)).all (clearOf raw)
  | _ => true

theorem noReuse_of_makesFresh {m : Move Sockets Bool SocketImport Int32 World} (h : makesFresh m = true) : NoReuse m := by
  intro c r raw haction hmade i j fd socket w hi hjob hcopied hraw
  have hother : i = !m.who := Bool.eq_not_of_ne hi
  unfold makesFresh at h
  rw [haction] at h
  simp only [hmade, Option.all_some, ← hother, hjob] at h
  exact absurd hraw (not_copied_of_clearOf h hcopied)

/-- A thread goes on, so many times. -/
def goOn (i : ι) (n : Nat) : List (ι × Option SocketImport) := List.replicate n (i, none)

end

end IdentityAux

section
variable {ι : Type} [DecidableEq ι]

/-- In every run of the threads in which the kernel hands out no number that another thread has copied and may still use, every call
that is made for a guest fd acts on the socket that the guest fd was bound to, or is refused; and no two guest fds are bound to one
socket. -/
theorem socket_identity (lc : Libc) (allowed : Bool) (log : List (Move Sockets ι SocketImport Int32 World)) (P : Threads ι)
    (h : ThreadRun lc allowed log P) (hreuse : ∀ m ∈ log, NoReuse m) :
    (∀ m ∈ log, ActsOnBound m) ∧ ∀ fd gd id, P.state.bound fd = some id → P.state.bound gd = some id → fd = gd := by
  have hstart : ∃ phase, IdentityAux.Inv phase (⟨fun _ => none, World.start allowed⟩ : Threads ι) := by
    refine ⟨fun _ => .done, ⟨nofun, nofun, nofun, nofun, nofun⟩, nofun, nofun, nofun⟩
  have hinv := Pool.Run.invariant (G := NoReuse) (I := fun P => ∃ phase, IdentityAux.Inv phase P) hstart
    (fun m ⟨_, hbefore⟩ hG hstep => hbefore.step hG hstep) h hreuse
  obtain ⟨⟨_, hend⟩, hmoves⟩ := hinv
  refine ⟨?_, hend.world.boundInj⟩
  intro m hm
  obtain ⟨⟨_, hbefore⟩, hstep⟩ := hmoves m hm
  exact hbefore.actsOnBound hstep

end

/-- A thread copies the number 3 to send on it, another makes a socket meanwhile, which gets the number 4, and then the send acts on the
socket it was made for. -/
theorem socket_identity_two : ∃ (log : List (Move Sockets Bool SocketImport Int32 World)) (P : Threads Bool),
    ThreadRun linux true log P ∧ (∀ m ∈ log, NoReuse m) ∧ (∀ m ∈ log, ActsOnBound m) ∧ P.state.bound 10000 = some 0 ∧
      P.state.bound 10001 = some 1 ∧
      log.any (fun m => match m.action with
        | .issue (.inr (.inr (.send raw _ _))) rc => m.who && raw == 3 && rc == 1 && m.before.state.socketOf 4 == some 1
        | _ => false) := by
  let schedule : List (Bool × Option SocketImport) :=
    (true, some (.socket 2 1 0)) :: IdentityAux.goOn true 4 ++ (true, some (.send 10000 0 1 0)) :: IdentityAux.goOn true 1 ++
      (false, some (.socket 2 1 0)) :: IdentityAux.goOn false 4 ++ IdentityAux.goOn true 2
  have hrun := IdentityAux.played_run schedule
  have hfresh : (IdentityAux.played schedule).1.all IdentityAux.makesFresh = true := by decide +kernel
  have hreuse : ∀ m ∈ (IdentityAux.played schedule).1, NoReuse m := by
    intro m hm
    exact IdentityAux.noReuse_of_makesFresh (List.all_eq_true.mp hfresh m hm)
  exact ⟨_, _, hrun, hreuse, (socket_identity linux true _ _ hrun hreuse).1, by decide +kernel, by decide +kernel, by decide +kernel⟩

/-- A thread looks up its socket to send on it; another closes the socket and makes a new one, which gets the number; the data goes to
the new socket. -/
theorem socket_identity_lost : ∃ (log : List (Move Sockets Bool SocketImport Int32 World)) (P : Threads Bool),
    ThreadRun linux true log P ∧ ∃ m ∈ log, ¬ActsOnBound m := by
  let schedule : List (Bool × Option SocketImport) :=
    (true, some (.socket 2 1 0)) :: IdentityAux.goOn true 4 ++ (true, some (.send 10000 0 1 0)) :: IdentityAux.goOn true 1 ++
      (false, some (.close 10000)) :: IdentityAux.goOn false 3 ++ (false, some (.socket 2 1 0)) :: IdentityAux.goOn false 4 ++
      IdentityAux.goOn true 2
  have hmiss : (IdentityAux.played schedule).1.any IdentityAux.misses = true := by decide +kernel
  obtain ⟨m, hm, hmiss⟩ := List.any_eq_true.mp hmiss
  exact ⟨_, _, IdentityAux.played_run schedule, m, hm, IdentityAux.not_actsOnBound_of_misses hmiss⟩

end WasmtimeMysql.Unix
