import WasmtimeMysql.Lemmas.Lookups

/-!
# The guest fds of files and of sockets

The two modules number their fds from two bases, and neither knows the other's. The numbers stay apart as long as the counter of the sockets
has not reached the base of the files (`namespaces_apart`): then an fd of one module is below that base and an fd of the other is not, and an
fd that is used with the wrong module is looked up there and not found. Nothing stops the counter there (`namespaces_meet`).
-/

namespace WasmtimeMysql

open Effects

section
variable {B : Build} {ι : Type}

/-- The fd was in the table of sockets at some time of the run. -/
def LiveSocket (log : List (GuestMove B ι)) (P : Guest B ι) (fd : Int32) : Prop :=
  P.shared.sockets.find fd ≠ none ∨ ∃ m ∈ log, m.before.shared.sockets.find fd ≠ none

/-- The fd was in the table of files at some time of the run. -/
def LiveFile (log : List (GuestMove B ι)) (P : Guest B ι) (fd : Int32) : Prop :=
  P.shared.files.files.find fd ≠ none ∨ ∃ m ∈ log, m.before.shared.files.files.find fd ≠ none

/-- The call uses an fd with the wrong module. For `poll` it is an fd of the array that it has read. -/
def Misused (log : List (GuestMove B ι)) (P : Guest B ι) (task : Task B.Runner GuestCall Int64) : Prop :=
  (∃ c fd, task.call = .socket c ∧ c.fd = some fd ∧ LiveFile log P fd) ∨
  (∃ fdsPtr nfds timeout bytes, ∃ fd ∈ polledFds nfds bytes,
    task.call = .socket (.poll fdsPtr nfds timeout) ∧ HasRead task bytes ∧ LiveFile log P fd) ∨
  (∃ c fd, task.call = .file c ∧ c.fd = some fd ∧ LiveSocket log P fd)

/-- The command touches no object: it calls neither the host nor std, and takes nothing out of a table. -/
def LooksOnly (O : OwnFds B) : Event B.Runner → Prop
  | ⟨.inl (.inl _), _⟩ => True
  | ⟨.inl (.inr (.inl .networkAllowed)), _⟩ => True
  | ⟨.inl (.inr (.inl (.sockets (.get _)))), _⟩ => True
  | ⟨.inl (.inr (.inl (.sockets (.remove _)))), found⟩ => found = none
  | ⟨.inr (.inl (.inl _)), _⟩ => True
  | ⟨.inr (.inl (.inr (.inl (.files (.get _))))), _⟩ => True
  | ⟨.inr (.inl (.inr (.inl (.files (.remove _))))), found⟩ => found = none
  | ⟨.inr (.inl (.inr (.inr (.inr c)))), _⟩ => ∃ fd, O.looks fd c
  | _ => False

/-- The guest fds of the two modules are apart, and a wrong one is `-EBADF` and touches nothing. -/
structure Apart (O : OwnFds B) (log : List (GuestMove B ι)) (P : Guest B ι) : Prop where
  disjoint : ∀ fd, P.shared.sockets.find fd = none ∨ P.shared.files.files.find fd = none
  touches : ∀ m ∈ log, ∀ task c r, m.deed = .issue task c r → Misused log P task → LooksOnly O ⟨c, r⟩
  ends : ∀ m ∈ log, ∀ task o, m.deed = .finish task o → Misused log P task → o = .returned (negErrno .ebadf).toInt64

/-- What `pread`, `pwrite` and `truncate` check before they look the fd up has passed. -/
def ArgsPass (task : Task B.Runner GuestCall Int64) : Prop :=
  (∀ c, task.call = .file c → c.ArgsOk) ∧
  ∀ ptr len errno, (⟨.inr (.inl (.inl (.readGuest ptr len))), .error errno⟩ : Event B.Runner) ∉ task.past

/-- The counter of the sockets stays below the base of the files, and calls with a wrong fd have passed what is checked before it. -/
structure WithinBases (log : List (GuestMove B ι)) (P : Guest B ι) : Prop where
  sockets : ∀ m ∈ log, ∀ task e r, m.deed = .issue task (.inl (.inr (.inl (.sockets (.insert e))))) r →
    m.before.shared.sockets.next < fileFdBase
  args : ∀ m ∈ log, ∀ task o, m.deed = .finish task o → Misused log P task → ArgsPass task

end

namespace NamespacesAux

variable {B : Build} {ι : Type} {ignored : B.Net.Cmd → Prop} {O : OwnFds B}

/-! ## The calls -/

/-- The fds that the table of files can have. -/
def FileRange (fd : Int32) : Prop := fileFdBase ≤ fd

/-- The fds that the table of sockets can have while its counter is below the base of the files. -/
def SocketRange (fd : Int32) : Prop := fd < fileFdBase

/-- The call may use an fd with the wrong module. -/
def Strays : GuestCall → Prop
  | .socket (.poll ..) => True
  | .socket c => ∃ fd, c.fd = some fd ∧ FileRange fd
  | .file c => ∃ fd, c.fd = some fd ∧ SocketRange fd
  | .threadSpawn _ => False

/-- The discipline of a call that may. -/
def straying (ignored : B.Net.Cmd → Prop) (O : OwnFds B) : GuestCall → Discipline B.Runner Seen
  | .socket c => (lookups B FileRange (fun _ => True) (SocketCalls B FileRange ignored c)).inl
  | .file _ => (fileLookups B O SocketRange).inl.inr
  | .threadSpawn _ => (Discipline.free Runtime Seen).inr.inr

/-- What it returns. -/
def Ends : GuestCall → Int64 → Seen → Prop
  | .socket (.poll _ nfds _), v, f => ∃ rc : Int32, v = rc.toInt64 ∧ PollEnds FileRange nfds rc f
  | .socket _, v, _ => v = (negErrno .ebadf).toInt64
  | .file c, v, f => c.ArgsOk → f.failed = false → v = (negErrno .ebadf).toInt64
  | .threadSpawn _, _, _ => True

/-- The discipline of every call: only fds of the table of files are entered beside it. -/
def entering (O : OwnFds B) : GuestCall → Discipline B.Runner Seen
  | .socket _ => (Discipline.free B.Sockets Seen).inl
  | .file _ => (fileEnters B O).inl.inr
  | .threadSpawn _ => (Discipline.free Runtime Seen).inr.inr

theorem delivers_guestProg (hsockets : SocketsWired B ignored) (hfiles : FilesWired B O) {call : GuestCall} (h : Strays call) :
    (guestProg B call).Delivers (straying ignored O call) (Ends call) .nothing := by
  cases call with
  | socket c =>
    refine (Prog.delivers_map.mpr ?_).inl
    cases c with
    | poll fdsPtr nfds timeout => exact (hsockets.poll _ _ fdsPtr nfds timeout).mono fun rc f hends => ⟨rc, rfl, hends⟩
    | socket =>
      obtain ⟨fd, hfd, -⟩ := h
      cases hfd
    | _ =>
      obtain ⟨fd, hfd, hrange⟩ := h
      exact (hsockets.delivers_fd hfd hrange _).mono fun rc f hrc => congrArg Int32.toInt64 hrc
  | file c =>
    obtain ⟨fd, hfd, hrange⟩ := h
    exact (hfiles.lookup _ c fd hfd hrange).inl.inr
  | threadSpawn => exact h.elim

theorem obeys_guestProg (hfiles : FilesWired B O) (call : GuestCall) :
    (guestProg B call).Obeys (entering O call) (fun _ _ => True) .nothing := by
  cases call with
  | socket c =>
    have hfree : (Int32.toInt64 <$> B.socketProg c).Obeys (.free B.Sockets Seen) (fun _ _ => True) .nothing :=
      Prog.obeys_free fun _ => trivial
    exact hfree.inl
  | file c => exact (hfiles.enter c).inl.inr
  | threadSpawn startArg =>
    have hfree : (Int32.toInt64 <$> spawnWasiThread startArg).Obeys (.free Runtime Seen) (fun _ _ => True) .nothing :=
      Prog.obeys_free fun _ => trivial
    exact hfree.inr.inr

/-! ## The invariant -/

/-- The counter of the sockets has not passed the base of the files, and what the file module keeps by fd is of its own fds. -/
def Bounded (O : OwnFds B) (s : RuntimeEnv B) : Prop :=
  s.sockets.next ≤ fileFdBase ∧ ∀ fd, O.live s.fileState fd → FileRange fd

/-- An fd of a socket is below the base of the files. -/
theorem Bounded.socketRange {s : RuntimeEnv B} (h : Bounded O s) {fd : Int32} (hfd : s.sockets.find fd ≠ none) : SocketRange fd := by
  obtain ⟨-, hlt | hmax⟩ := s.sockets.key_range fd hfd
  · exact Int32.lt_of_lt_of_le hlt h.1
  · have hle := h.1
    rw [hmax] at hle
    exact absurd hle (by decide)

theorem fileRange {s : RuntimeEnv B} {fd : Int32} (hfd : s.files.files.find fd ≠ none) : FileRange fd :=
  (s.files.files.key_range fd hfd).1

theorem not_both {fd : Int32} (h : FileRange fd) : ¬SocketRange fd := Int32.not_lt.mpr h

/-- A socket is inserted only below the base of the files. -/
def Below (s : RuntimeEnv B) (c : B.Runner.Cmd) : Prop :=
  ∀ e, c = .inl (.inr (.inl (.sockets (.insert e)))) → s.sockets.next < fileFdBase

theorem satSucc_le_base {x : Int32} (h : x < fileFdBase) : satSucc x ≤ fileFdBase := by
  have hne : x ≠ Int32.maxValue := by
    rintro rfl
    exact absurd h (by decide)
  have hlt := Int32.lt_iff_toInt_lt.mp h
  rw [Int32.le_iff_toInt_le, toInt_satSucc hne]
  omega

/-- What holds of every call. -/
def StrayTask (ignored : B.Net.Cmd → Prop) (O : OwnFds B) (task : Task B.Runner GuestCall Int64) : Prop :=
  (Strays task.call → Task.Delivers (straying ignored O) (fun _ => .nothing) Ends task) ∧
  Task.Obeys (entering O) (fun _ => .nothing) (fun _ _ _ => True) task

variable (ignored) in
/-- What is looked up in the wrong table is not found. -/
theorem relies_straying (hfiles : FilesWired B O) {own : ThreadStore} {s s' : RuntimeEnv B} (call : GuestCall) {c : B.Runner.Cmd}
    {r : B.Runner.Resp c} (hs : Bounded O s) (hm : threadMachine B own s c r s') : (straying ignored O call).relies c r := by
  cases call with
  | socket c' =>
    have hnone (fd : Int32) (hrange : FileRange fd) : s.sockets.find fd = none :=
      not_not.mp fun hfd => not_both hrange (hs.socketRange hfd)
    rcases c with (c | c | c) | c
    · trivial
    · obtain ⟨rfl, -⟩ := hm
      cases c with
      | networkAllowed => trivial
      | sockets c =>
        cases c with
        | get fd => exact hnone fd
        | remove fd => exact hnone fd
        | insert e => trivial
        | modify fd u => trivial
    · trivial
    · trivial
  | file c' =>
    have hnone (fd : Int32) (hrange : SocketRange fd) : s.files.files.find fd = none :=
      not_not.mp fun hfd => not_both (fileRange hfd) hrange
    rcases c with c | (c | c | c | c) | c
    · trivial
    · trivial
    · obtain ⟨rfl, -⟩ := hm
      cases c with
      | preopens => trivial
      | files c =>
        cases c with
        | get fd => exact hnone fd
        | remove fd => exact hnone fd
        | insert e => trivial
        | modify fd u => trivial
    · trivial
    · obtain ⟨t, hm, -⟩ := hm
      intro fd hrange hlooks
      exact hfiles.missed _ _ fd c r (fun hlive => not_both (hs.2 fd hlive) hrange) hlooks hm
    · trivial
  | threadSpawn startArg => rcases c with c | c | c <;> trivial

/-- What a command leaves. -/
theorem bounded_of_step (hfiles : FilesWired B O) {own : ThreadStore} {s s' : RuntimeEnv B} {call : GuestCall} {f : Seen}
    {c : B.Runner.Cmd} {r : B.Runner.Resp c} (hs : Bounded O s) (hbelow : Below s c) (hallow : (entering O call).allows f c)
    (hm : threadMachine B own s c r s') : (entering O call).relies c r ∧ Bounded O s' := by
  rcases c with (c | c | c) | (c | c | c | c) | c
  · cases hm
    exact ⟨by cases call <;> trivial, hs⟩
  · obtain ⟨rfl, rfl⟩ := hm
    refine ⟨by cases call <;> trivial, ?_, hs.2⟩
    cases c with
    | networkAllowed => exact hs.1
    | sockets c =>
      cases c with
      | insert e => exact satSucc_le_base (hbelow e rfl)
      | _ => exact hs.1
  · cases hm
    exact ⟨by cases call <;> trivial, hs⟩
  · cases hm
    exact ⟨by cases call <;> trivial, hs⟩
  · obtain ⟨rfl, rfl⟩ := hm
    refine ⟨?_, hs⟩
    cases call with
    | socket => trivial
    | file =>
      cases c with
      | preopens => trivial
      | files c =>
        cases c with
        | insert file => exact s.files.files.base_le
        | _ => trivial
    | threadSpawn => trivial
  · cases hm
    exact ⟨by cases call <;> trivial, hs⟩
  · obtain ⟨t, hm, rfl⟩ := hm
    cases call with
    | socket => exact hallow.elim
    | file =>
      refine ⟨trivial, hs.1, ?_⟩
      intro fd hlive
      rcases hfiles.entered _ _ fd c r hm hlive with hlive | henters
      · exact hs.2 fd hlive
      · exact hallow fd henters
    | threadSpawn => exact hallow.elim
  · refine ⟨by cases call <;> trivial, ?_⟩
    cases c with
    | fetchAdd =>
      obtain ⟨-, rfl⟩ := hm
      exact hs
    | spawn =>
      cases hm
      exact hs

section
variable [DecidableEq ι]

/-- Every reachable state of a run that keeps within the bases. -/
theorem holds_bounded (hsockets : SocketsWired B ignored) (hfiles : FilesWired B O) {main : ι} {cli : RunnerCli}
    {preopens : List (PreopenMapping B.Path)} {log : List (GuestMove B ι)} {P : Guest B ι} (hrun : GuestRun B main cli preopens log P)
    (hbelow : ∀ m ∈ log, ∀ t c r, m.deed = .issue t c r → Below m.before.shared c) :
    Crew.Holds (Bounded O) (fun _ => True) (StrayTask ignored O) P := by
  refine Crew.Run.holds (g := Below) ?_ ?_ (fun _ _ _ _ _ _ => trivial) trivial ?_ hrun hbelow
  · intro call
    exact ⟨fun hstrays => delivers_guestProg hsockets hfiles hstrays, obeys_guestProg hfiles call⟩
  · intro own s s' call past c k r hs _ ht hbelow hm
    obtain ⟨hallow, hnext⟩ := ht.2.issue
    obtain ⟨hrelies, hs'⟩ := bounded_of_step hfiles hs hbelow hallow hm
    refine ⟨⟨fun hstrays => ?_, hnext r hrelies⟩, hs'⟩
    exact (ht.1 hstrays).issue.2 r (relies_straying ignored hfiles call hs hm)
  · have hbases : socketFdBase ≤ fileFdBase := by decide
    exact ⟨hbases, fun fd hlive => (hfiles.start fd hlive).elim⟩

omit [DecidableEq ι] in
/-- An fd of a file at some time of the run. -/
theorem fileRange_of_live {log : List (GuestMove B ι)} {P : Guest B ι} {fd : Int32} (h : LiveFile log P fd) : FileRange fd := by
  rcases h with h | ⟨m, -, h⟩
  · exact fileRange h
  · exact fileRange h

omit [DecidableEq ι] in
/-- An fd of a socket at some time of the run. -/
theorem socketRange_of_live {log : List (GuestMove B ι)} {P : Guest B ι} (hP : Bounded O P.shared)
    (hlog : ∀ m ∈ log, Bounded O m.before.shared) {fd : Int32} (h : LiveSocket log P fd) : SocketRange fd := by
  rcases h with h | ⟨m, hm, h⟩
  · exact hP.socketRange h
  · exact (hlog m hm).socketRange h

/-- What a call that uses an fd with the wrong module is known to do. -/
structure Stray (task : Task B.Runner GuestCall Int64) : Prop where
  strays : Strays task.call
  polls : ∀ fdsPtr nfds timeout, task.call = .socket (.poll fdsPtr nfds timeout) →
    ∃ bytes, HasRead task bytes ∧ ∃ fd ∈ polledFds nfds bytes, FileRange fd

omit [DecidableEq ι] in
theorem stray_of_misused {log : List (GuestMove B ι)} {P : Guest B ι} (hP : Bounded O P.shared)
    (hlog : ∀ m ∈ log, Bounded O m.before.shared) {task : Task B.Runner GuestCall Int64} (h : Misused log P task) : Stray task := by
  rcases h with ⟨c, fd, hcall, hfd, hlive⟩ | ⟨fdsPtr, nfds, timeout, bytes, fd, hmem, hcall, hread, hlive⟩ | ⟨c, fd, hcall, hfd, hlive⟩
  · constructor
    · rw [hcall]
      cases c with
      | poll => cases hfd
      | _ => exact ⟨fd, hfd, fileRange_of_live hlive⟩
    · intro fdsPtr nfds timeout hpoll
      cases hcall.symm.trans hpoll
      cases hfd
  · constructor
    · rw [hcall]
      trivial
    · intro fdsPtr' nfds' timeout' hpoll
      cases hcall.symm.trans hpoll
      exact ⟨bytes, hread, fd, hmem, fileRange_of_live hlive⟩
  · constructor
    · rw [hcall]
      exact ⟨fd, hfd, socketRange_of_live hP hlog hlive⟩
    · intro fdsPtr nfds timeout hpoll
      cases hcall.symm.trans hpoll

/-- An fd at or above the base of the files is not negative. -/
theorem nonneg_of_fileRange {fd : Int32} (h : FileRange fd) : 0 ≤ fd := Int32.le_trans (by decide) h

/-- A command of such a call. -/
theorem looksOnly_of_step (hfiles : FilesWired B O) {m : GuestMove B ι}
    (hm : Crew.Holds (Bounded O) (fun _ => True) (StrayTask ignored O) m.before)
    (hstep : Crew.Step (guestRules B) m.before m.who m.deed m.after) {task : Task B.Runner GuestCall Int64} {c : B.Runner.Cmd}
    {r : B.Runner.Resp c} (hdeed : m.deed = .issue task c r) (hstray : Stray task) : LooksOnly O ⟨c, r⟩ := by
  rw [hdeed] at hstep
  obtain ⟨own, k, s', hi, hrest, hcmd⟩ := hstep.of_issue
  obtain ⟨call, past, rest⟩ := task
  cases hrest
  have hallow := ((hm.of_member hi).2.1 hstray.strays).issue.1
  have hrelies := relies_straying ignored hfiles call hm.shared hcmd
  cases call with
  | socket c' =>
    rcases c with (c | c | c) | c
    · trivial
    · cases c with
      | networkAllowed => trivial
      | sockets c =>
        cases c with
        | get fd => trivial
        | remove fd => exact hrelies hallow
        | insert e => exact hallow.elim
        | modify fd u => exact hallow.elim
    · cases c' with
      | poll fdsPtr nfds timeout =>
        obtain ⟨bytes, hread, fd, hmem, hrange⟩ := hstray.polls fdsPtr nfds timeout rfl
        exact absurd hrange (hallow.1 bytes (mem_reads_of_hasRead hread) fd hmem (nonneg_of_fileRange hrange))
      | _ => exact hallow.elim
    · exact hallow.elim
  | file c' =>
    rcases c with c | (c | c | c | c) | c
    · exact hallow.elim
    · trivial
    · cases c with
      | preopens => exact hallow.elim
      | files c =>
        cases c with
        | get fd => trivial
        | remove fd => exact hrelies hallow
        | insert e => exact hallow.elim
        | modify fd u => exact u.elim
    · exact hallow.elim
    · obtain ⟨fd, -, hlooks⟩ := hallow
      exact ⟨fd, hlooks⟩
    · exact hallow.elim
  | threadSpawn startArg => exact hstray.strays.elim

/-- The end of such a call. -/
theorem ebadf_of_step {m : GuestMove B ι} (hm : Crew.Holds (Bounded O) (fun _ => True) (StrayTask ignored O) m.before)
    (hstep : Crew.Step (guestRules B) m.before m.who m.deed m.after) {task : Task B.Runner GuestCall Int64} {o : Outcome Int64}
    (hdeed : m.deed = .finish task o) (hstray : Stray task) (hargs : ArgsPass task) : o = .returned (negErrno .ebadf).toInt64 := by
  rw [hdeed] at hstep
  obtain ⟨own, hi, hend⟩ := hstep.of_finish
  have hdelivers := (hm.of_member hi).2.1 hstray.strays
  obtain ⟨call, past, rest⟩ := task
  rcases hend with ⟨v, hrest, rfl⟩ | ⟨hrest, -⟩
  · cases hrest
    cases call with
    | socket c =>
      cases c with
      | poll fdsPtr nfds timeout =>
        obtain ⟨rc, rfl, hends⟩ := hdelivers
        obtain ⟨bytes, hread, fd, hmem, hrange⟩ := hstray.polls fdsPtr nfds timeout rfl
        rw [hends ⟨bytes, mem_reads_of_hasRead hread, fd, hmem, nonneg_of_fileRange hrange, hrange⟩]
      | _ => exact congrArg Outcome.returned hdelivers
    | file c => exact congrArg Outcome.returned (hdelivers (hargs.1 c rfl) (not_failed_of_past hargs.2))
    | threadSpawn => exact hstray.strays.elim
  · cases hrest
    exact hdelivers.elim

/-- The same for both builds. -/
theorem apart_of_within (hsockets : SocketsWired B ignored) (hfiles : FilesWired B O) {main : ι} {cli : RunnerCli}
    {preopens : List (PreopenMapping B.Path)} {log : List (GuestMove B ι)} {P : Guest B ι} (hrun : GuestRun B main cli preopens log P)
    (hwithin : WithinBases log P) : Apart O log P := by
  have hbelow (m : GuestMove B ι) (hm : m ∈ log) (t : Task B.Runner GuestCall Int64) (c : B.Runner.Cmd) (r : B.Runner.Resp c)
      (hdeed : m.deed = .issue t c r) : Below m.before.shared c := by
    rintro e rfl
    exact hwithin.sockets m hm t e r hdeed
  have hP := holds_bounded hsockets hfiles hrun hbelow
  have hmoves := Crew.Run.before (fun _ _ hrun hbelow => holds_bounded hsockets hfiles hrun hbelow) hrun hbelow
  have hstray (task : Task B.Runner GuestCall Int64) (h : Misused log P task) : Stray task :=
    stray_of_misused hP.shared (fun m hm => (hmoves m hm).1.shared) h
  refine ⟨?_, ?_, ?_⟩
  · intro fd
    by_cases hsocket : P.shared.sockets.find fd = none
    · exact .inl hsocket
    · right
      exact not_not.mp fun hfile => not_both (fileRange hfile) (hP.shared.socketRange hsocket)
  · intro m hm task c r hdeed hmisused
    exact looksOnly_of_step hfiles (hmoves m hm).1 (hmoves m hm).2 hdeed (hstray task hmisused)
  · intro m hm task o hdeed hmisused
    exact ebadf_of_step (hmoves m hm).1 (hmoves m hm).2 hdeed (hstray task hmisused) (hwithin.args m hm task o hdeed hmisused)

end

end NamespacesAux

/-- Every run that keeps within the bases keeps the guest fds of files and sockets apart, on both hosts: for any number of threads, in any
order of their steps, and whatever the host, std and guest memory answer. -/
theorem namespaces_apart {ι : Type} [DecidableEq ι] (lc : Libc) (toUppercase : Str → Str) (main : ι) (cli : RunnerCli) :
    (∀ preopens log P, GuestRun (unixBuild lc) main cli preopens log P → WithinBases log P → Apart (Unix.ownFds lc) log P) ∧
    (∀ preopens log P, GuestRun (windowsBuild toUppercase) main cli preopens log P → WithinBases log P →
      Apart (Windows.ownFds toUppercase) log P) := by
  constructor
  · intro preopens log P hrun hwithin
    exact NamespacesAux.apart_of_within (unix_socketsWired lc) (unix_filesWired lc) hrun hwithin
  · intro preopens log P hrun hwithin
    exact NamespacesAux.apart_of_within (windows_socketsWired toUppercase) (windows_filesWired toUppercase) hrun hwithin

/-! ## Runs -/

namespace NamespacesAux

/-- The runner with its defaults. -/
def defaultCli : RunnerCli := ⟨⟨false, []⟩, false⟩

/-- One preopen. -/
def dataDir : List (PreopenMapping Str) := [⟨['/'], "/data".toList⟩]

/-- `socket` gets the next fd. -/
theorem runs_socket (s : RuntimeEnv (unixBuild linux)) : ∃ tr o,
    Runs (threadMachine (unixBuild linux) ⟨true⟩) (guestProg (unixBuild linux) (.socket (.socket 2 1 0))) s tr o
      { s with sockets := (s.sockets.insert ⟨3, 2, 2⟩).2 } ∧
    ∀ ev ∈ tr, ∀ s, threadStarts (unixBuild linux) s ev.1 ev.2 = none := by
  refine ⟨[⟨.inl (.inr (.inl .networkAllowed)), true⟩, ⟨.inl (.inr (.inr (.socket 2 1 0))), (3 : Int32)⟩,
    ⟨.inl (.inr (.inl (.sockets (.insert ⟨3, 2, 2⟩)))), (s.sockets.next, s.sockets.find s.sockets.next)⟩],
    .returned s.sockets.next.toInt64, ?_, ?_⟩
  · refine .call ⟨rfl, rfl⟩ ?_
    refine .call rfl ?_
    refine .call ⟨rfl, rfl⟩ ?_
    exact .ret _ _
  · simp only [List.forall_mem_cons, List.not_mem_nil, false_imp_iff, implies_true, and_true]
    exact ⟨fun _ => rfl, fun _ => rfl, fun _ => rfl⟩

/-- `open` gets the next fd. -/
theorem runs_open {s : RuntimeEnv (unixBuild linux)} (hs : s.files.preopens = dataDir)
    (hfree : s.files.files.find s.files.files.next = none) : ∃ tr o,
    Runs (threadMachine (unixBuild linux) ⟨true⟩) (guestProg (unixBuild linux) (.file (.openFile 0 0 0))) s tr o
      { s with files := { s.files with files := (s.files.files.insert ⟨5⟩).2 } } ∧
    ∀ ev ∈ tr, ∀ s, threadStarts (unixBuild linux) s ev.1 ev.2 = none := by
  obtain ⟨cli, ⟨preopens, table⟩, u, sockets, n⟩ := s
  cases hs
  have hanswer : (table.next, (none : Option File)) = (table.next, table.find table.next) := congrArg (table.next, ·) hfree.symm
  refine ⟨[⟨.inr (.inl (.inl (.readCstr 0))), .ok ['/', 'f']⟩, ⟨.inr (.inl (.inr (.inl .preopens))), dataDir⟩,
    ⟨.inr (.inl (.inr (.inr (.inl (.openFile "/data/f".toList (openOptions 0)))))), .ok ⟨5⟩⟩,
    ⟨.inr (.inl (.inr (.inl (.files (.insert ⟨5⟩))))), (table.next, none)⟩], .returned table.next.toInt64, ?_, ?_⟩
  · refine .call rfl ?_
    refine .call ⟨rfl, rfl⟩ ?_
    refine .call rfl ?_
    refine .call ⟨hanswer, rfl⟩ ?_
    exact .ret _ _
  · simp only [List.forall_mem_cons, List.not_mem_nil, false_imp_iff, implies_true, and_true]
    exact ⟨fun _ => rfl, fun _ => rfl, fun _ => rfl, fun _ => rfl⟩

/-- So many sockets move the counter so far. -/
theorem run_sockets (n : Nat) (hn : n ≤ 10001) : ∃ (log : List (GuestMove (unixBuild linux) Nat)) (P : Guest (unixBuild linux) Nat),
    GuestRun (unixBuild linux) 0 defaultCli dataDir log P ∧ P.member 0 = some ⟨⟨true⟩, none⟩ ∧
      P.shared.files = ⟨dataDir, .empty fileFdBase File⟩ ∧ P.shared.sockets.next.toInt = 10000 + n ∧
      ∀ i < n, P.shared.sockets.find (Int32.ofInt (10000 + i)) ≠ none := by
  induction n with
  | zero => exact ⟨[], _, .nil, rfl, rfl, by decide, nofun⟩
  | succ n ih =>
    obtain ⟨log, P, hrun, hmain, hfiles, hnext, hfind⟩ := ih (by omega)
    obtain ⟨tr, o, hcall, hquiet⟩ := runs_socket P.shared
    obtain ⟨log', hrun'⟩ := hrun.call (.socket (.socket 2 1 0)) hmain hcall hquiet
    have hmax : Int32.maxValue.toInt = 2147483647 := by decide
    have hne : P.shared.sockets.next ≠ Int32.maxValue := by
      intro heq
      rw [heq] at hnext
      omega
    refine ⟨_, _, hrun', hmain, hfiles, ?_, ?_⟩
    · show (satSucc P.shared.sockets.next).toInt = _
      rw [toInt_satSucc hne, hnext]
      omega
    · intro i hi
      rw [FdTable.find_insert]
      split
      · exact Option.some_ne_none _
      · rename_i hfd
        refine hfind i (Nat.lt_of_le_of_ne (Nat.le_of_lt_succ hi) ?_)
        rintro rfl
        refine hfd (Int32.toInt_inj.mp ?_)
        rw [hnext, Int32.toInt_ofInt_of_le (by omega) (by omega)]

end NamespacesAux

/-- After ten thousand and one sockets the next file gets an fd that is a socket's. Before that, `pread` with the fd of a socket and a
negative length returns `-EINVAL`. -/
theorem namespaces_meet :
    (∃ (log : List (GuestMove (unixBuild linux) Nat)) (P : Guest (unixBuild linux) Nat),
      GuestRun (unixBuild linux) 0 NamespacesAux.defaultCli NamespacesAux.dataDir log P ∧
      P.shared.sockets.find 20000 ≠ none ∧ P.shared.files.files.find 20000 ≠ none ∧ ¬Apart (Unix.ownFds linux) log P) ∧
    (∃ (log : List (GuestMove (unixBuild linux) Nat)) (P : Guest (unixBuild linux) Nat),
      GuestRun (unixBuild linux) 0 NamespacesAux.defaultCli NamespacesAux.dataDir log P ∧
      (∃ m ∈ log, ∃ task, m.deed = .finish task (.returned (negErrno .einval).toInt64) ∧ task.call = .file (.pread 10000 0 (-1) 0)) ∧
      ¬Apart (Unix.ownFds linux) log P) := by
  constructor
  · obtain ⟨log, P, hrun, hmain, hfiles, hnext, hfind⟩ := NamespacesAux.run_sockets 10001 (by decide)
    have hsocket : P.shared.sockets.find 20000 ≠ none := hfind 10000 (by decide)
    obtain ⟨tr, o, hcall, hquiet⟩ := NamespacesAux.runs_open (congrArg HostFilesInner.preopens hfiles) (by rw [hfiles]; rfl)
    obtain ⟨log', hrun'⟩ := hrun.call (.file (.openFile 0 0 0)) hmain hcall hquiet
    have hfile : (P.shared.files.files.insert ⟨5⟩).2.find 20000 ≠ none := by
      rw [hfiles]
      exact Option.some_ne_none _
    refine ⟨_, _, hrun', hsocket, hfile, fun hapart => ?_⟩
    rcases hapart.disjoint 20000 with h | h
    · exact hsocket h
    · exact hfile h
  · obtain ⟨log, P, hrun, hmain, hfiles, hnext, hfind⟩ := NamespacesAux.run_sockets 1 (by decide)
    have hsocket : P.shared.sockets.find 10000 ≠ none := hfind 0 (by decide)
    have h₁ := hrun.snoc ⟨P, 0, _, _⟩ (.start (.file (.pread 10000 0 (-1) 0)) hmain)
    have h₂ := h₁.snoc ⟨_, 0, _, _⟩ (.finish (v := (negErrno .einval).toInt64) (Crew.put_self _ _ _))
    refine ⟨_, _, h₂, ⟨_, List.mem_append_right _ List.mem_cons_self, _, rfl, rfl⟩, fun hapart => ?_⟩
    have hends := hapart.ends _ (List.mem_append_right _ List.mem_cons_self) _ _ rfl (.inr (.inr ⟨_, 10000, rfl, rfl, .inl hsocket⟩))
    exact absurd hends (by decide)

/-- A guest closes a socket as if it were a file, and is told that it is not. -/
theorem namespaces_apart_close : ∃ (log : List (GuestMove (unixBuild linux) Nat)) (P : Guest (unixBuild linux) Nat),
    GuestRun (unixBuild linux) 0 NamespacesAux.defaultCli NamespacesAux.dataDir log P ∧ LiveSocket log P 10000 ∧
    (∃ m ∈ log, ∃ task, m.deed = .finish task (.returned (negErrno .ebadf).toInt64) ∧ task.call = .file (.close 10000)) ∧
    Apart (Unix.ownFds linux) log P := by
  have h₀ : GuestRun (unixBuild linux) 0 NamespacesAux.defaultCli NamespacesAux.dataDir []
      (.alone 0 ⟨true⟩ (.start (unixBuild linux) NamespacesAux.defaultCli NamespacesAux.dataDir)) := .nil
  obtain ⟨P₁, h₁, hi₁, hs₁, -⟩ := h₀.started (Crew.put_self _ _ _) (.socket (.socket 2 1 0))
  obtain ⟨P₂, h₂, hi₂, hs₂, -⟩ := h₁.issued hi₁ ⟨rfl, rfl⟩ rfl
  obtain ⟨P₃, h₃, hi₃, hs₃, -⟩ := h₂.issued (r := (3 : Int32)) hi₂ rfl rfl
  obtain ⟨P₄, h₄, hi₄, hs₄, -⟩ := h₃.issued hi₃ ⟨rfl, rfl⟩ rfl
  obtain ⟨P₅, h₅, hi₅, hs₅, -⟩ := h₄.finished hi₄
  obtain ⟨P₆, h₆, hi₆, hs₆, -⟩ := h₅.started hi₅ (.file (.close 10000))
  have hsockets : P₃.shared.sockets = .empty socketFdBase _ := by rw [hs₃, hs₂, hs₁]; rfl
  have hfiles : P₆.shared.files.files = .empty fileFdBase File := by rw [hs₆, hs₅, hs₄, hs₃, hs₂, hs₁]; rfl
  have hnone : (none : Option File) = P₆.shared.files.files.find 10000 := by rw [hfiles]; rfl
  obtain ⟨P₇, h₇, hi₇, hs₇, -⟩ := h₆.issued (r := none) hi₆ ⟨hnone, rfl⟩ rfl
  obtain ⟨P₈, h₈, hi₈, hs₈, -⟩ := h₇.finished hi₇
  have hlive : P₈.shared.sockets.find 10000 ≠ none := by
    rw [hs₈, hs₇]
    show P₆.shared.sockets.find 10000 ≠ none
    rw [hs₆, hs₅, hs₄]
    show (P₃.shared.sockets.insert _).2.find 10000 ≠ none
    rw [hsockets]
    exact Option.some_ne_none _
  refine ⟨_, P₈, h₈, .inl hlive, ⟨_, List.mem_append_right _ List.mem_cons_self, _, rfl, rfl⟩, ?_⟩
  refine (namespaces_apart linux (fun s => s) 0 NamespacesAux.defaultCli).1 _ _ _ h₈ ⟨?_, ?_⟩
  · intro m hm task e r hdeed
    simp only [List.nil_append, List.cons_append, List.mem_cons, List.not_mem_nil, or_false] at hm
    rcases hm with rfl | rfl | rfl | rfl | rfl | rfl | rfl | rfl
    case inr.inr.inr.inl =>
      show P₃.shared.sockets.next < fileFdBase
      rw [hsockets]
      decide
    all_goals cases hdeed
  · intro m hm task o hdeed _
    simp only [List.nil_append, List.cons_append, List.mem_cons, List.not_mem_nil, or_false] at hm
    rcases hm with rfl | rfl | rfl | rfl | rfl | rfl | rfl | rfl
    case inr.inr.inr.inr.inl =>
      cases hdeed
      exact ⟨fun c hc => (by cases hc), by simp⟩
    case inr.inr.inr.inr.inr.inr.inr =>
      cases hdeed
      exact ⟨fun c hc => (by cases hc; trivial), by simp⟩
    all_goals cases hdeed

end WasmtimeMysql
