import WasmtimeMysql.Lemmas.Lookups

/-!
# Without the network

Only `socket` asks whether the network is allowed. What `--no-network` promises of the other imports rests on the table: no thread ever gets
a socket into it, because every thread, also one that another thread started, has the flag of the same `Cli` in its store. So a lookup
always fails, and it comes before every call to the host (`no_network`). What `poll` still hands to the host has nothing to poll.
-/

namespace WasmtimeMysql

open Effects

section
variable {B : Build} {ι : Type}

/-- The call has done nothing yet, and its first command is this one on the application state. -/
def AtFirst (task : Task B.Runner GuestCall Int64) (c : AppState.Cmd B.Entry B.Change) : Prop :=
  task.past = [] ∧ ∃ k, task.rest = .call (.inl (.inr (.inl c))) k

/-- What the runner keeps while the network is off. `ignored` are the calls to the host that poll nothing. -/
structure NetworkOff (ignored : B.Net.Cmd → Prop) (log : List (GuestMove B ι)) (P : Guest B ι) : Prop where
  empty : ∀ fd, P.shared.sockets.find fd = none
  /-- A call with an fd has its lookup to make, or returns `-EBADF`. -/
  lookup : ∀ i own task c fd, P.member i = some ⟨own, some task⟩ → task.call = .socket c → c.fd = some fd →
    AtFirst task (.sockets (.get fd)) ∨ AtFirst task (.sockets (.remove fd)) ∨ task.rest = .ret (negErrno .ebadf).toInt64
  /-- A call of `socket` has the flag to look at, or returns `-ENETDOWN`. -/
  socket : ∀ i own task domain ty protocol, P.member i = some ⟨own, some task⟩ → task.call = .socket (.socket domain ty protocol) →
    AtFirst task .networkAllowed ∨ task.rest = .ret (negErrno .enetdown).toInt64
  /-- So these are their results. -/
  lookupEnds : ∀ m ∈ log, ∀ task o c fd, m.deed = .finish task o → task.call = .socket c → c.fd = some fd →
    o = .returned (negErrno .ebadf).toInt64
  socketEnds : ∀ m ∈ log, ∀ task o domain ty protocol, m.deed = .finish task o → task.call = .socket (.socket domain ty protocol) →
    o = .returned (negErrno .enetdown).toInt64
  /-- The socket module calls the host only for `poll`, and only with an array whose fds are all negative. -/
  hostCalls : ∀ m ∈ log, ∀ task c r, m.deed = .issue task (.inl (.inr (.inr c))) r →
    (∃ fdsPtr nfds timeout, task.call = .socket (.poll fdsPtr nfds timeout) ∧
      ∀ bytes, HasRead task bytes → ∀ fd ∈ polledFds nfds bytes, fd < 0) ∧ ignored c

end

namespace NoNetworkAux

variable {B : Build} {ι : Type} {ignored : B.Net.Cmd → Prop}

/-! ## The calls -/

/-- The discipline of each call. -/
def discipline (ignored : B.Net.Cmd → Prop) : GuestCall → Discipline B.Runner Seen
  | .socket c => (lookups B (fun _ => True) (fun allowed => allowed = false) (SocketCalls B (fun _ => True) ignored c)).inl
  | .file _ => (Discipline.free B.Files Seen).inl.inr
  | .threadSpawn _ => (Discipline.free Runtime Seen).inr.inr

/-- What an import other than `poll` returns. -/
def refusal : SocketImport → Option Errno
  | .socket .. => some .enetdown
  | c => c.fd.map fun _ => .ebadf

theorem refusal_of_fd {c : SocketImport} {fd : Int32} (h : c.fd = some fd) : refusal c = some .ebadf := by
  cases c with
  | socket => cases h
  | poll => cases h
  | _ => rfl

/-- The first command of an import other than `poll`, and what it returns if the answer is that of an empty table without a network. -/
theorem first_command (h : SocketsWired B ignored) {c : SocketImport} {errno : Errno} (hc : refusal c = some errno) :
    ∃ cmd k, B.socketProg c = .call (.inr (.inl cmd)) k ∧
      ((∃ domain ty protocol, c = .socket domain ty protocol ∧ cmd = .networkAllowed) ∨
        ∃ fd, c.fd = some fd ∧ (cmd = .sockets (.get fd) ∨ cmd = .sockets (.remove fd))) ∧
      ∀ (a : AppState B.Entry), a.networkAllowed = false → (∀ fd, a.sockets.find fd = none) →
        k (AppState.handle B.apply a cmd).1 = .ret (negErrno errno) := by
  cases hfd : c.fd with
  | some fd =>
    rw [refusal_of_fd hfd] at hc
    cases hc
    rcases h.lookup c fd hfd with ⟨k, hprog, hk⟩ | ⟨k, hprog, hk⟩
    · refine ⟨_, k, hprog, .inr ⟨fd, rfl, .inl rfl⟩, ?_⟩
      intro a _ hempty
      rw [← hk]
      exact congrArg k (hempty fd)
    · refine ⟨_, k, hprog, .inr ⟨fd, rfl, .inr rfl⟩, ?_⟩
      intro a _ hempty
      rw [← hk]
      exact congrArg k (hempty fd)
  | none =>
    cases c with
    | socket domain ty protocol =>
      cases hc
      obtain ⟨k, hprog, hk⟩ := h.socket domain ty protocol
      refine ⟨_, k, hprog, .inl ⟨domain, ty, protocol, rfl, rfl⟩, ?_⟩
      intro a hflag _
      rw [← hk]
      exact congrArg k hflag
    | poll => cases hc
    | _ => cases hfd

theorem guestProg_of_call {c : SocketImport} {cmd : AppState.Cmd B.Entry B.Change} {k : cmd.Resp → Prog B.Sockets Int32}
    (h : B.socketProg c = .call (.inr (.inl cmd)) k) :
    guestProg B (.socket c) = .call (.inl (.inr (.inl cmd))) fun r => (Int32.toInt64 <$> k r).inl := by
  show (Int32.toInt64 <$> B.socketProg c).inl = _
  rw [h]
  rfl

theorem obeys_socketProg (h : SocketsWired B ignored) (c : SocketImport) :
    (B.socketProg c).Obeys (lookups B (fun _ => True) (fun allowed => allowed = false) (SocketCalls B (fun _ => True) ignored c))
      (fun _ _ => True) .nothing := by
  cases hfd : c.fd with
  | some fd => exact (h.delivers_fd (F := fun _ => True) hfd trivial .nothing).obeys fun _ _ _ => trivial
  | none =>
    cases c with
    | socket domain ty protocol => exact (h.delivers_socket (fun _ hoff => hoff) domain ty protocol .nothing).obeys fun _ _ _ => trivial
    | poll fdsPtr nfds timeout => exact (h.poll _ _ fdsPtr nfds timeout).obeys fun _ _ _ => trivial
    | _ => cases hfd

theorem obeys_guestProg (h : SocketsWired B ignored) (call : GuestCall) :
    (guestProg B call).Obeys (discipline ignored call) (fun _ _ => True) .nothing := by
  cases call with
  | socket c => exact (Prog.obeys_map.mpr (obeys_socketProg h c)).inl
  | file c =>
    have hfree : (B.fileProg c).Obeys (.free B.Files Seen) (fun _ _ => True) .nothing := Prog.obeys_free fun _ => trivial
    exact hfree.inl.inr
  | threadSpawn startArg =>
    have hfree : (Int32.toInt64 <$> spawnWasiThread startArg).Obeys (.free Runtime Seen) (fun _ _ => True) .nothing :=
      Prog.obeys_free fun _ => trivial
    exact hfree.inr.inr

/-! ## The invariant -/

/-- The table is empty, and the runner was started without the network. -/
def Off (s : RuntimeEnv B) : Prop := s.cli.noNetwork = true ∧ ∀ fd, s.sockets.find fd = none

/-- An import other than `poll` has done nothing, or returns its errno. -/
def Refused (task : Task B.Runner GuestCall Int64) : Prop := ∀ c errno, task.call = .socket c → refusal c = some errno →
  (task.past = [] ∧ task.rest = guestProg B (.socket c)) ∨ task.rest = .ret (negErrno errno).toInt64

/-- What holds of every call. -/
def OffTask (ignored : B.Net.Cmd → Prop) (task : Task B.Runner GuestCall Int64) : Prop :=
  Task.Obeys (discipline ignored) (fun _ => .nothing) (fun _ _ _ => True) task ∧ Refused task

/-- What an allowed command answers while the network is off, and what it leaves. -/
theorem command_off {own : ThreadStore} {s s' : RuntimeEnv B} {call : GuestCall} {f : Seen} {c : B.Runner.Cmd} {r : B.Runner.Resp c}
    (hs : Off s) (hown : own.networkAllowed = false) (hallow : (discipline ignored call).allows f c)
    (hm : threadMachine B own s c r s') : (discipline ignored call).relies c r ∧ Off s' := by
  obtain ⟨hcli, hempty⟩ := hs
  cases call with
  | socket c' =>
    rcases c with (c | c | c) | c
    · cases hm
      exact ⟨trivial, hcli, hempty⟩
    · obtain ⟨rfl, rfl⟩ := hm
      cases c with
      | networkAllowed => exact ⟨hown, hcli, hempty⟩
      | sockets c =>
        cases c with
        | get fd => exact ⟨fun _ => hempty fd, hcli, hempty⟩
        | remove fd =>
          refine ⟨fun _ => hempty fd, hcli, ?_⟩
          intro fd'
          show (s.sockets.remove fd).find fd' = none
          rw [FdTable.remove_of_find_none (hempty fd)]
          exact hempty fd'
        | insert e => exact hallow.elim
        | modify fd u => exact hallow.elim
    · cases hm
      exact ⟨trivial, hcli, hempty⟩
    · exact hallow.elim
  | file c' =>
    rcases c with c | (c | c | c | c) | c
    · exact hallow.elim
    · cases hm
      exact ⟨trivial, hcli, hempty⟩
    · obtain ⟨rfl, rfl⟩ := hm
      exact ⟨trivial, hcli, hempty⟩
    · cases hm
      exact ⟨trivial, hcli, hempty⟩
    · obtain ⟨t, _, rfl⟩ := hm
      exact ⟨trivial, hcli, hempty⟩
    · exact hallow.elim
  | threadSpawn startArg =>
    rcases c with c | c | c
    · exact hallow.elim
    · exact hallow.elim
    · cases c with
      | fetchAdd =>
        obtain ⟨rfl, rfl⟩ := hm
        exact ⟨trivial, hcli, hempty⟩
      | spawn threadId arg =>
        cases hm
        exact ⟨trivial, hcli, hempty⟩

/-- The first command of an import other than `poll` is answered so that it returns its errno. -/
theorem refused_issue (h : SocketsWired B ignored) {own : ThreadStore}
    {s s' : RuntimeEnv B} {call : GuestCall} {past : List (Event B.Runner)}
    {c : B.Runner.Cmd} {k : B.Runner.Resp c → Prog B.Runner Int64} {r : B.Runner.Resp c} (hs : Off s) (hown : own.networkAllowed = false)
    (ht : Refused ⟨call, past, .call c k⟩) (hm : threadMachine B own s c r s') : Refused ⟨call, past ++ [⟨c, r⟩], k r⟩ := by
  intro c' errno hcall hrefusal
  cases hcall
  right
  obtain ⟨cmd, k', hprog, -, hanswer⟩ := first_command h hrefusal
  rcases ht c' errno rfl hrefusal with ⟨-, hrest⟩ | hrest
  · rw [guestProg_of_call hprog] at hrest
    cases hrest
    obtain ⟨hr, -⟩ := hm
    show (Int32.toInt64 <$> k' r).inl = _
    rw [hr, hanswer ⟨own.networkAllowed, s.sockets⟩ hown hs.2]
    rfl
  · cases hrest

section
variable [DecidableEq ι]

/-- Every reachable state. -/
theorem holds_off (h : SocketsWired B ignored) {main : ι} {cli : RunnerCli} (hoff : cli.noNetwork = true)
    {preopens : List (PreopenMapping B.Path)} {log : List (GuestMove B ι)} {P : Guest B ι} (hrun : GuestRun B main cli preopens log P) :
    Crew.Holds Off (fun own => own.networkAllowed = false) (OffTask ignored) P := by
  refine Crew.Run.holds (g := fun _ _ => True) ?_ ?_ ?_ ?_ ⟨hoff, fun _ => rfl⟩ hrun fun _ _ _ _ _ _ => trivial
  · intro call
    refine ⟨obeys_guestProg h call, ?_⟩
    rintro c errno rfl _
    exact .inl ⟨rfl, rfl⟩
  · intro own s s' call past c k r hs hown ht _ hm
    obtain ⟨hobeys, hrefused⟩ := ht
    obtain ⟨hallow, hnext⟩ := hobeys.issue
    obtain ⟨hrelies, hs'⟩ := command_off hs hown hallow hm
    exact ⟨⟨hnext r hrelies, refused_issue h hs hown hrefused hm⟩, hs'⟩
  · intro s c r own hs hstarts
    rcases c with c | c | c
    · cases hstarts
    · cases hstarts
    · cases c with
      | fetchAdd => cases hstarts
      | spawn threadId arg =>
        cases r with
        | false => cases hstarts
        | true =>
          cases hstarts
          show (!s.cli.noNetwork) = false
          rw [hs.1]
          rfl
  · show (!cli.noNetwork) = false
    rw [hoff]
    rfl

/-- What an import other than `poll` has before it. -/
theorem atFirst_of_refused (h : SocketsWired B ignored) {task : Task B.Runner GuestCall Int64} (ht : Refused task) {c : SocketImport}
    {errno : Errno} (hcall : task.call = .socket c) (hc : refusal c = some errno) :
    (∃ cmd, AtFirst task cmd ∧ ((∃ domain ty protocol, c = .socket domain ty protocol ∧ cmd = .networkAllowed) ∨
      ∃ fd, c.fd = some fd ∧ (cmd = .sockets (.get fd) ∨ cmd = .sockets (.remove fd)))) ∨
    task.rest = .ret (negErrno errno).toInt64 := by
  rcases ht c errno hcall hc with ⟨hpast, hrest⟩ | hrest
  · obtain ⟨cmd, k, hprog, hcmd, -⟩ := first_command h hc
    rw [guestProg_of_call hprog] at hrest
    exact .inl ⟨cmd, ⟨hpast, _, hrest⟩, hcmd⟩
  · exact .inr hrest

/-- How an import other than `poll` ends. -/
theorem ends_refused (h : SocketsWired B ignored) {m : GuestMove B ι}
    (hm : Crew.Holds Off (fun own => own.networkAllowed = false) (OffTask ignored) m.before)
    (hstep : Crew.Step (guestRules B) m.before m.who m.deed m.after) {task : Task B.Runner GuestCall Int64} {o : Outcome Int64}
    (hdeed : m.deed = .finish task o) {c : SocketImport} {errno : Errno} (hcall : task.call = .socket c) (hc : refusal c = some errno) :
    o = .returned (negErrno errno).toInt64 := by
  rw [hdeed] at hstep
  obtain ⟨own, hi, hend⟩ := hstep.of_finish
  rcases atFirst_of_refused h (hm.of_member hi).2.2 hcall hc with ⟨cmd, ⟨-, k, hrest⟩, -⟩ | hrest
  · rcases hend with ⟨v, hend, -⟩ | ⟨hend, -⟩
    · cases hrest.symm.trans hend
    · cases hrest.symm.trans hend
  · rcases hend with ⟨v, hend, ho⟩ | ⟨hend, -⟩
    · cases hrest.symm.trans hend
      exact ho
    · cases hrest.symm.trans hend

/-- A call of the socket module to the host. -/
theorem hostCall_of_step {m : GuestMove B ι} (hm : Crew.Holds Off (fun own => own.networkAllowed = false) (OffTask ignored) m.before)
    (hstep : Crew.Step (guestRules B) m.before m.who m.deed m.after) {task : Task B.Runner GuestCall Int64} {c : B.Net.Cmd}
    {r : B.Net.Resp c} (hdeed : m.deed = .issue task (.inl (.inr (.inr c))) r) :
    (∃ fdsPtr nfds timeout, task.call = .socket (.poll fdsPtr nfds timeout) ∧
      ∀ bytes, HasRead task bytes → ∀ fd ∈ polledFds nfds bytes, fd < 0) ∧ ignored c := by
  rw [hdeed] at hstep
  obtain ⟨own, k, s', hi, hrest, -⟩ := hstep.of_issue
  obtain ⟨call, past, rest⟩ := task
  cases hrest
  have hallow := (hm.of_member hi).2.1.issue.1
  cases call with
  | socket c' =>
    cases c' with
    | poll fdsPtr nfds timeout =>
      obtain ⟨hnone, hignored⟩ := hallow
      have hneg (bytes : List UInt8)
          (hbytes : bytes ∈ ((discipline ignored (.socket (.poll fdsPtr nfds timeout))).after .nothing past).reads) (fd : Int32)
          (hfd : fd ∈ polledFds nfds bytes) : fd < 0 := Int32.not_le.mp fun hpos => hnone bytes hbytes fd hfd hpos trivial
      exact ⟨⟨fdsPtr, nfds, timeout, rfl, fun bytes hread => hneg bytes (mem_reads_of_hasRead hread)⟩, hignored hneg⟩
    | _ => exact hallow.elim
  | file c' => exact hallow.elim
  | threadSpawn startArg => exact hallow.elim

/-- The same for both builds. -/
theorem networkOff (h : SocketsWired B ignored) {main : ι} {cli : RunnerCli} (hoff : cli.noNetwork = true)
    {preopens : List (PreopenMapping B.Path)} {log : List (GuestMove B ι)} {P : Guest B ι} (hrun : GuestRun B main cli preopens log P) :
    NetworkOff ignored log P := by
  have hP := holds_off h hoff hrun
  have hmoves := Crew.Run.before (G := fun _ => True) (fun _ _ hrun _ => holds_off h hoff hrun) hrun fun _ _ => trivial
  refine ⟨hP.shared.2, ?_, ?_, ?_, ?_, ?_⟩
  · intro i own task c fd hi hcall hfd
    rcases atFirst_of_refused h (hP.of_member hi).2.2 hcall (refusal_of_fd hfd) with ⟨cmd, hfirst, hcmd⟩ | hrest
    · rcases hcmd with ⟨domain, ty, protocol, rfl, -⟩ | ⟨fd', hfd', hcmd⟩
      · cases hfd
      · cases hfd.symm.trans hfd'
        rcases hcmd with rfl | rfl
        · exact .inl hfirst
        · exact .inr (.inl hfirst)
    · exact .inr (.inr hrest)
  · intro i own task domain ty protocol hi hcall
    rcases atFirst_of_refused h (hP.of_member hi).2.2 hcall rfl with ⟨cmd, hfirst, hcmd⟩ | hrest
    · rcases hcmd with ⟨_, _, _, -, rfl⟩ | ⟨fd', hfd', -⟩
      · exact .inl hfirst
      · cases hfd'
    · exact .inr hrest
  · intro m hm task o c fd hdeed hcall hfd
    exact ends_refused h (hmoves m hm).1 (hmoves m hm).2 hdeed hcall (refusal_of_fd hfd)
  · intro m hm task o domain ty protocol hdeed hcall
    exact ends_refused h (hmoves m hm).1 (hmoves m hm).2 hdeed hcall rfl
  · intro m hm task c r hdeed
    exact hostCall_of_step (hmoves m hm).1 (hmoves m hm).2 hdeed

end

end NoNetworkAux

/-- `--no-network` is absolute for the socket module, on both hosts: for any number of threads, started by any thread, in any order of
their steps, and whatever the host and guest memory answer. -/
theorem no_network {ι : Type} [DecidableEq ι] (lc : Libc) (toUppercase : Str → Str) (main : ι) (cli : RunnerCli)
    (hoff : cli.noNetwork = true) :
    (∀ preopens log P, GuestRun (unixBuild lc) main cli preopens log P → NetworkOff Unix.Ignored log P) ∧
    (∀ preopens log P, GuestRun (windowsBuild toUppercase) main cli preopens log P → NetworkOff Windows.Ignored log P) := by
  constructor
  · intro preopens log P hrun
    exact NoNetworkAux.networkOff (unix_socketsWired lc) hoff hrun
  · intro preopens log P hrun
    exact NoNetworkAux.networkOff (windows_socketsWired toUppercase) hoff hrun

/-- The runner with `--no-network` and `--no-default-preopen`. -/
def offCli : RunnerCli := ⟨⟨true, []⟩, true⟩

/-- The main thread of a runner without the network starts a thread, which asks for a socket and is told that there is none; the main thread tries
to listen on an fd that it was not given. -/
theorem no_network_socket : ∃ (log : List (GuestMove (unixBuild linux) Nat)) (P : Guest (unixBuild linux) Nat),
    GuestRun (unixBuild linux) 0 offCli [] log P ∧
    log.map Crew.Move.who = [0, 0, 0, 1, 1, 0, 1, 0, 0, 0] ∧
    (∃ m ∈ log, ∃ task, m.who = 1 ∧ m.deed = .finish task (.returned (negErrno .enetdown).toInt64) ∧ task.call = .socket (.socket 1 6 0)) ∧
    (∃ m ∈ log, ∃ task, m.who = 0 ∧ m.deed = .finish task (.returned (negErrno .ebadf).toInt64) ∧ task.call = .socket (.listen 10000 128)) ∧
    NetworkOff Unix.Ignored log P := by
  have h₀ : GuestRun (unixBuild linux) 0 offCli [] [] (.alone 0 ⟨false⟩ (.start (unixBuild linux) offCli [])) := .nil
  obtain ⟨P₁, h₁, hmain₁, hs₁, hother₁⟩ := h₀.started (Crew.put_self _ _ _) (.threadSpawn 0)
  obtain ⟨P₂, h₂, hmain₂, hs₂, hother₂⟩ := h₁.issued (r := (1 : Int32)) hmain₁ ⟨by rw [hs₁]; rfl, rfl⟩ rfl
  have hnone : P₂.member 1 = none := (hother₂ 1 (by decide)).trans (hother₁ 1 (by decide))
  have hstarts : threadStarts (unixBuild linux) P₂.shared (.inr (.inr (.spawn 1 0))) true = some ⟨false⟩ := by
    rw [hs₂, hs₁]
    rfl
  have hkept : threadMachine (unixBuild linux) ⟨false⟩ P₂.shared (.inr (.inr (.spawn 1 0))) true P₂.shared := rfl
  obtain ⟨P₃, h₃, hmain₃, hthread₃, hs₃, -⟩ := h₂.spawned (r := true) hmain₂ hkept hstarts hnone
  obtain ⟨P₄, h₄, hthread₄, hs₄, hother₄⟩ := h₃.started hthread₃ (.socket (.socket 1 6 0))
  obtain ⟨P₅, h₅, hthread₅, hs₅, hother₅⟩ := h₄.issued hthread₄ ⟨rfl, rfl⟩ rfl
  have hmain₅ := ((hother₅ 0 (by decide)).trans (hother₄ 0 (by decide))).trans hmain₃
  obtain ⟨P₆, h₆, hmain₆, hs₆, hother₆⟩ := h₅.finished hmain₅
  obtain ⟨P₇, h₇, -, hs₇, hother₇⟩ := h₆.finished ((hother₆ 1 (by decide)).trans hthread₅)
  obtain ⟨P₈, h₈, hmain₈, hs₈, -⟩ := h₇.started ((hother₇ 0 (by decide)).trans hmain₆) (.socket (.listen 10000 128))
  have hempty : P₈.shared.sockets.find 10000 = none := by
    rw [hs₈, hs₇, hs₆, hs₅, hs₄, hs₃, hs₂, hs₁]
    rfl
  obtain ⟨P₉, h₉, hmain₉, -, -⟩ := h₈.issued (r := (none : Option Unix.HostSocket)) hmain₈ ⟨hempty.symm, rfl⟩ rfl
  obtain ⟨P₁₀, h₁₀, -⟩ := h₉.finished hmain₉
  refine ⟨_, _, h₁₀, rfl, ⟨_, List.mem_append_left _ (List.mem_append_left _
    (List.mem_append_left _ (List.mem_append_right _ List.mem_cons_self))), _, rfl, rfl, rfl⟩,
    ⟨_, List.mem_append_right _ List.mem_cons_self, _, rfl, rfl, rfl⟩, ?_⟩
  exact (no_network linux (fun s => s) 0 offCli rfl).1 [] _ _ h₁₀

end WasmtimeMysql
