import WasmtimeMysql.Lemmas.Modes

/-!
# Whether `F_GETFL` tells the truth on Windows

In every run of the threads in which no thread comes between the steps of another at one socket, the flags that the table keeps tell the
modes of the sockets whenever no import is in progress (`flagsTrue`). Nothing in the code keeps the threads apart: two calls of `F_SETFL`
can switch the mode in one order and write the flags in the other, and then `F_GETFL` is wrong for good (`flags_lost`). The Unix module
keeps no flags and asks the kernel.
-/

namespace WasmtimeMysql.Windows

open Effects

namespace ModesAux

/-! ### A small WinSock -/

/-- WinSock with two sockets to make and one to accept. -/
def smallWinsock (k : Modes) : (c : Net.Cmd) → Option (c.Resp × Modes)
  | .wsaStartup => some (0, k)
  | .socket .. =>
    if k 100 = none then some (100, Function.update k 100 (some false))
    else if k 108 = none then some (108, Function.update k 108 (some false))
    else none
  | .accept listener _ =>
    if k listener ≠ none ∧ k 104 = none then some (⟨104, [], 0⟩, Function.update k 104 (k listener)) else none
  | .ioctlsocketFionbio raw enabled => if k raw ≠ none then some (0, Function.update k raw (some (enabled != 0))) else none
  | .closesocket raw => some (0, Function.update k raw none)
  | _ => none

theorem smallWinsock_allowed (k : Modes) (c : Net.Cmd) (r : c.Resp) (k' : Modes) (h : smallWinsock k c = some (r, k')) :
    winsock k c r k' := by
  cases c with
  | wsaStartup =>
    cases h
    exact rfl
  | socket =>
    unfold smallWinsock at h
    dsimp only at h
    split at h
    · rename_i hfree
      cases h
      exact ⟨hfree, rfl⟩
    · split at h
      · rename_i hfree
        cases h
        exact ⟨hfree, rfl⟩
      · cases h
  | accept =>
    unfold smallWinsock at h
    dsimp only at h
    split at h
    · rename_i hfree
      cases h
      exact ⟨hfree.1, hfree.2, rfl⟩
    · cases h
  | ioctlsocketFionbio =>
    unfold smallWinsock at h
    dsimp only at h
    split at h
    · rename_i hopen
      cases h
      exact ⟨hopen, rfl⟩
    · cases h
  | closesocket =>
    cases h
    exact .inl rfl
  | _ => cases h

/-- A guest memory in which every word is zero. -/
def memoryZero : (c : GuestMem.Cmd) → c.Resp
  | .readGuest .. => .ok [0, 0, 0, 0]
  | .writeGuest .. => .ok ()
  | .readCstr _ => .ok []
  | .alloc _ => ()

/-- The threads over it, played. -/
def playing (w : World) : (c : Sockets.Cmd) → Option (Sockets.Resp c × World)
  | .inl c => some (memoryZero c, w)
  | .inr (.inl c) =>
    some ((w.2.1.handle HostSocket.setStatusFlags c).1, ((), (w.2.1.handle HostSocket.setStatusFlags c).2, w.2.2))
  | .inr (.inr c) => (smallWinsock w.2.2 c).map fun x => (x.1, ((), w.2.1, x.2))

theorem playing_allowed (w : World) (c : Sockets.Cmd) (r : Sockets.Resp c) (w' : World) (h : playing w c = some (r, w')) :
    threads w c r w' := by
  rcases c with c | c | c
  · cases h
    exact ⟨trivial, rfl⟩
  · cases h
    exact ⟨⟨rfl, rfl⟩, rfl⟩
  · obtain ⟨x, hx, heq⟩ := Option.map_eq_some_iff.mp h
    cases heq
    exact ⟨⟨smallWinsock_allowed w.2.2 c _ _ hx, rfl⟩, rfl⟩

section
variable {ι : Type} [DecidableEq ι]

/-- What a schedule comes to. -/
def played (schedule : List (ι × Option SocketImport)) : List (ThreadMove ι) × Threads ι :=
  (Pool.play prog playing [] ⟨fun _ => none, World.start true⟩ schedule).getD ([], ⟨fun _ => none, World.start true⟩)

theorem played_run (schedule : List (ι × Option SocketImport)) : ThreadRun true (played schedule).1 (played schedule).2 := by
  unfold played
  cases hplay : Pool.play prog playing [] ⟨fun _ => none, World.start true⟩ schedule with
  | none => exact .nil
  | some r => exact Pool.Run.nil.play playing_allowed hplay

/-- A thread goes on, so many times. -/
def goOn (i : ι) (n : Nat) : List (ι × Option SocketImport) := List.replicate n (i, none)

end

/-! ### Two threads that keep apart -/

/-- The entries that a job copied, with their guest fds. -/
def copies (j : ThreadJob) : List (Int32 × HostSocket) :=
  j.past.filterMap fun
    | ⟨_, .inr (.inl (.sockets (.get fd))), some socket⟩ => some (fd, socket)
    | _ => none

/-- The guest fd whose flags a job is about to write. -/
def writes (j : ThreadJob) : Option Int32 :=
  match j.rest with
  | .call (.inr (.inl (.sockets (.modify fd _)))) _ => some fd
  | _ => none

theorem mem_copies {j : ThreadJob} {fd : Int32} {socket : HostSocket} (h : Copied j fd socket) : (fd, socket) ∈ copies j := by
  obtain ⟨w, hw⟩ := h
  exact List.mem_filterMap.mpr ⟨_, hw, rfl⟩

theorem writes_of_switched {j : ThreadJob} {fd : Int32} (h : Switched j fd) : writes j = some fd := by
  obtain ⟨statusFlags, k, hrest⟩ := h
  unfold writes
  rw [hrest]

/-- A move of one of two threads at sockets that the other has nothing to do with. -/
def apart (m : ThreadMove Bool) : Bool :=
  (m.before.job (!m.who)).all fun other =>
    match m.action with
    | .issue (.inr (.inr (.ioctlsocketFionbio raw _))) _ =>
      ((m.before.job m.who).all fun own => (copies own).all fun c => writes other != some c.1) &&
        (copies other).all fun c => c.2.rawSocket != raw
    | .issue (.inr (.inr c)) r => (handles.made c r).all fun raw => (copies other).all fun c => c.2.rawSocket != raw
    | .issue (.inr (.inl (.sockets (.get fd)))) _ => writes other != some fd
    | .issue (.inr (.inl (.sockets (.insert _)))) _ =>
      writes other != some m.before.state.sockets.next && (copies other).all fun c => c.1 != m.before.state.sockets.next
    | _ => true

theorem noOverlap_of_apart {m : ThreadMove Bool} (h : apart m = true) : NoOverlap m := by
  have hother {i : Bool} {j : ThreadJob} (hi : i ≠ m.who) (hj : m.before.job i = some j) : m.before.job (!m.who) = some j := by
    rw [← Bool.eq_not_of_ne hi, hj]
  refine ⟨?_, ?_, ?_, ?_, ?_⟩
  · intro raw enabled rc haction j fd socket hj hcopied i j' hi hj' hswitched
    simp only [apart, hother hi hj', haction, hj, Option.all_some, Bool.and_eq_true, List.all_eq_true, bne_iff_ne] at h
    exact h.1 _ (mem_copies hcopied) (writes_of_switched hswitched)
  · intro raw enabled rc haction i j fd socket hi hj _ hraw hbusy
    simp only [apart, hother hi hj, haction, Option.all_some, Bool.and_eq_true, List.all_eq_true, bne_iff_ne] at h
    exact h.2 _ (mem_copies hbusy.1) hraw
  · intro fd r haction j _ _ i j' hi hj' hswitched
    simp only [apart, hother hi hj', haction, Option.all_some, bne_iff_ne] at h
    exact h (writes_of_switched hswitched)
  · intro c r raw haction hmade i j fd socket hi hj hraw hbusy
    cases c with
    | ioctlsocketFionbio => cases hmade
    | _ =>
      simp only [apart, hother hi hj, haction, hmade, Option.all_some, List.all_eq_true, bne_iff_ne] at h
      exact h _ (mem_copies hbusy.1) hraw
  · intro e r haction i j hi hj
    simp only [apart, hother hi hj, haction, Option.all_some, Bool.and_eq_true, List.all_eq_true, bne_iff_ne] at h
    exact ⟨fun hswitched => h.1 (writes_of_switched hswitched), fun socket _ hbusy => h.2 _ (mem_copies hbusy.1) rfl⟩

end ModesAux

section
variable {ι : Type} [DecidableEq ι]

/-- In every run of the threads in which no other thread is in the way of a step, the flags of every live guest fd tell the mode of its
socket in every state in which no import is in progress. -/
theorem flagsTrue (allowed : Bool) (log : List (ThreadMove ι)) (P : Threads ι) (h : ThreadRun allowed log P)
    (hoverlap : ∀ m ∈ log, NoOverlap m) (hidle : ∀ i, P.job i = none) : FlagsTrue P.state := by
  have hstart : ∃ phase, ModesAux.Inv phase (⟨fun _ => none, World.start allowed⟩ : Threads ι) :=
    ⟨fun _ => .idle, nofun, nofun, nofun, nofun, nofun, nofun, nofun⟩
  have hinv := Pool.Run.invariant (G := NoOverlap) (I := fun P => ∃ phase, ModesAux.Inv phase P) hstart
    (fun m ⟨_, hbefore⟩ hG hstep => hbefore.step hG hstep) h hoverlap
  obtain ⟨⟨phase, hend⟩, -⟩ := hinv
  intro fd socket hfind
  rcases hend.flags fd socket hfind with htrue | ⟨i, j, mode, hj, -⟩
  · exact htrue
  · cases (hidle i).symm.trans hj

end

/-- While a thread switches the mode of its socket, accepts on it and closes it, another makes a socket, makes it nonblocking and closes it.
The socket that was accepted is nonblocking, and its flags say so. -/
theorem flagsTrue_two : ∃ (log : List (ThreadMove Bool)) (P : Threads Bool), ThreadRun true log P ∧ (∀ m ∈ log, NoOverlap m) ∧
    (∀ i, P.job i = none) ∧ FlagsTrue P.state ∧ P.state.sockets.find 10000 = none ∧ P.state.sockets.find 10001 = none ∧
      P.state.sockets.find 10002 = some ⟨104, 2, 2, wasiONonblock⟩ ∧ P.state.mode 104 = some true := by
  let schedule : List (Bool × Option SocketImport) :=
    (true, some (.socket 2 1 0)) :: ModesAux.goOn true 5 ++ (true, some (.fcntl 10000 wasiFSetfl wasiONonblock)) :: ModesAux.goOn true 2 ++
      (false, some (.socket 2 1 0)) :: ModesAux.goOn false 5 ++ ModesAux.goOn true 2 ++
      (true, some (.accept 10000 0 0)) :: ModesAux.goOn true 3 ++
      (false, some (.fcntl 10001 wasiFSetfl wasiONonblock)) :: ModesAux.goOn false 2 ++ ModesAux.goOn true 5 ++ ModesAux.goOn false 2 ++
      (true, some (.close 10000)) :: ModesAux.goOn true 1 ++ (false, some (.close 10001)) :: ModesAux.goOn false 3 ++ ModesAux.goOn true 2
  have hrun := ModesAux.played_run schedule
  have hapart : (ModesAux.played schedule).1.all ModesAux.apart = true := by decide +kernel
  have hoverlap : ∀ m ∈ (ModesAux.played schedule).1, NoOverlap m :=
    fun m hm => ModesAux.noOverlap_of_apart (List.all_eq_true.mp hapart m hm)
  have hidle : ∀ i, (ModesAux.played schedule).2.job i = none := by
    have hnone : ∀ i, ((ModesAux.played schedule).2.job i).isNone = true := by decide +kernel
    exact fun i => Option.isNone_iff_eq_none.mp (hnone i)
  exact ⟨_, _, hrun, hoverlap, hidle, flagsTrue true _ _ hrun hoverlap hidle, by decide +kernel, by decide +kernel, by decide +kernel,
    by decide +kernel⟩

/-- One thread makes a socket nonblocking and another makes it blocking. The modes are switched in one order and the flags written in
the other: the flags say that the socket is nonblocking, and it is not. -/
theorem flags_lost : ∃ (log : List (ThreadMove Bool)) (P : Threads Bool), ThreadRun true log P ∧ (∀ i, P.job i = none) ∧
    ¬FlagsTrue P.state := by
  let schedule : List (Bool × Option SocketImport) :=
    (true, some (.socket 2 1 0)) :: ModesAux.goOn true 5 ++ (true, some (.fcntl 10000 wasiFSetfl wasiONonblock)) :: ModesAux.goOn true 2 ++
      (false, some (.fcntl 10000 wasiFSetfl 0)) :: ModesAux.goOn false 4 ++ ModesAux.goOn true 2
  have hidle : ∀ i, ((ModesAux.played schedule).2.job i).isNone = true := by decide +kernel
  have hfind : (ModesAux.played schedule).2.state.sockets.find 10000 = some ⟨100, 2, 2, wasiONonblock⟩ := by decide +kernel
  have hmode : (ModesAux.played schedule).2.state.mode 100 = some false := by decide +kernel
  refine ⟨_, _, ModesAux.played_run schedule, fun i => Option.isNone_iff_eq_none.mp (hidle i), ?_⟩
  intro htrue
  have hwrong := htrue 10000 _ hfind
  rw [hmode] at hwrong
  revert hwrong
  decide

end WasmtimeMysql.Windows
