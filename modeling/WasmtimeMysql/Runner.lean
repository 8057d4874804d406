import WasmtimeMysql.HostFiles
import WasmtimeMysql.HostSocketsWindows
import WasmtimeMysql.Lib.Crew

/-!
# The runner

`main.rs`: one guest, any number of its threads, and the import modules between them and the host. The threads share the table of files,
the table of sockets and the counter of thread ids (`RuntimeEnv`); each has a store with a flag of its own (`AppState`). A call of a
thread is a socket import, a file import or `thread-spawn`, and the threads are a crew: every command of a call is a step, after which any
thread may go on. What std, the host and guest memory answer is left open. A file import keeps the mutex of its table from its first table
operation on, so the steps of a crew are finer than the runner's.
-/

namespace WasmtimeMysql

open Effects

/-! ## The two builds -/

/-- The modules the runner is built from on a host. `FileState` is what the file module keeps beside its table. -/
structure Build where
  Entry : Type
  Change : Type
  apply : Change → Entry → Entry
  Net : Sig
  socketProg : SocketImport → Prog (GuestMem.sum (SocketSig Entry Change Net)) Int32
  Path : Type
  FileHost : Sig
  FileState : Type
  fileStart : FileState
  fileHost : Machine FileHost FileState
  fileProg : FileImport → Prog (GuestMem.sum (FileSig Path FileHost)) Int64

/-- The runner on Unix. -/
@[reducible] def unixBuild (lc : Libc) : Build where
  Entry := Unix.HostSocket
  Change := Empty
  apply := Empty.elim
  Net := Unix.Net
  socketProg := Unix.prog lc
  Path := Str
  FileHost := Unix.FileHost
  FileState := Unit
  fileStart := ()
  fileHost := .any
  fileProg := Unix.fileProg lc

/-- The runner on Windows. -/
@[reducible] def windowsBuild (toUppercase : Str → Str) : Build where
  Entry := Windows.HostSocket
  Change := Int32
  apply := Windows.HostSocket.setStatusFlags
  Net := Windows.Net
  socketProg := Windows.prog
  Path := WinPath
  FileHost := Windows.FileHost
  FileState := Windows.LockMaps × Unit
  fileStart := (⟨fun _ => none, fun _ => none⟩, ())
  fileHost := (Machine.det Windows.LockMaps.handle).sum .any
  fileProg := Windows.fileProg toUppercase

/-! ## The runtime -/

/-- The flags of the runner that its own code reads. -/
structure RunnerCli extends Cli where
  noNetwork : Bool

/-- What the threads share. -/
structure RuntimeEnv (B : Build) where
  cli : RunnerCli
  files : HostFilesInner B.Path
  fileState : B.FileState
  sockets : FdTable socketFdBase B.Entry
  nextThreadId : Int32

/-- What a thread has in its store beside the tables that it shares. -/
structure ThreadStore where
  networkAllowed : Bool
  deriving DecidableEq, Repr

/-- The commands of `spawn_wasi_thread`. -/
inductive Runtime.Cmd where
  /-- `next_thread_id.fetch_add(1)` -/
  | fetchAdd
  /-- `thread::Builder::spawn` of `run_wasi_thread` -/
  | spawn (threadId startArg : Int32)
  deriving DecidableEq, Repr

/-- The answer to each; `spawn` answers whether there is a thread. -/
@[reducible] def Runtime.Cmd.Resp : Runtime.Cmd → Type
  | .fetchAdd => Int32
  | .spawn .. => Bool

@[reducible] def Runtime : Sig := ⟨Runtime.Cmd, Runtime.Cmd.Resp⟩

/-- `spawn_wasi_thread` -/
def spawnWasiThread (startArg : Int32) : Prog Runtime Int32 := do
  let threadId ← .cmd (S := Runtime) .fetchAdd
  if threadId ≤ 0 then return negErrno .eagain
  else
    let spawned ← .cmd (S := Runtime) (.spawn threadId startArg)
    if spawned then return threadId else return negErrno .eagain

/-! ## The threads -/

/-- A call of a guest thread. -/
inductive GuestCall where
  | socket (c : SocketImport)
  | file (c : FileImport)
  | threadSpawn (startArg : Int32)
  deriving DecidableEq, Repr

section
variable (B : Build)

/-- The commands of the socket module. -/
@[reducible] def Build.Sockets : Sig := GuestMem.sum (SocketSig B.Entry B.Change B.Net)

/-- The commands of the file module. -/
@[reducible] def Build.Files : Sig := GuestMem.sum (FileSig B.Path B.FileHost)

/-- The commands of the runner. -/
@[reducible] def Build.Runner : Sig := B.Sockets.sum (B.Files.sum Runtime)

/-- What a call runs. A result of 32 bits is given as its `i64`. -/
def guestProg : GuestCall → Prog B.Runner Int64
  | .socket c => (Int32.toInt64 <$> B.socketProg c).inl
  | .file c => (B.fileProg c).inl.inr
  | .threadSpawn startArg => (Int32.toInt64 <$> spawnWasiThread startArg).inr.inr

/-- What a command does for a thread with this store. -/
def threadMachine (own : ThreadStore) : Machine B.Runner (RuntimeEnv B)
  | s, .inl (.inl _), _, s' => s' = s
  | s, .inl (.inr (.inl c)), r, s' =>
    r = (AppState.handle B.apply ⟨own.networkAllowed, s.sockets⟩ c).1 ∧
      s' = { s with sockets := (AppState.handle B.apply ⟨own.networkAllowed, s.sockets⟩ c).2.sockets }
  | s, .inl (.inr (.inr _)), _, s' => s' = s
  | s, .inr (.inl (.inl _)), _, s' => s' = s
  | s, .inr (.inl (.inr (.inl c))), r, s' => r = (s.files.handle c).1 ∧ s' = { s with files := (s.files.handle c).2 }
  | s, .inr (.inl (.inr (.inr (.inl _)))), _, s' => s' = s
  | s, .inr (.inl (.inr (.inr (.inr c)))), r, s' => ∃ t, B.fileHost s.fileState c r t ∧ s' = { s with fileState := t }
  | s, .inr (.inr .fetchAdd), r, s' => r = s.nextThreadId ∧ s' = { s with nextThreadId := s.nextThreadId + 1 }
  | s, .inr (.inr (.spawn ..)), _, s' => s' = s

/-- `run_wasi_thread` gives a new thread its store. -/
def threadStarts (s : RuntimeEnv B) : (c : B.Runner.Cmd) → B.Runner.Resp c → Option ThreadStore
  | .inr (.inr (.spawn ..)), true => some { networkAllowed := !s.cli.noNetwork }
  | _, _ => none

/-- The rules of the guest threads. -/
@[reducible] def guestRules : Crew.Rules B.Runner GuestCall Int64 ThreadStore (RuntimeEnv B) where
  prog := guestProg B
  machine := threadMachine B
  starts := threadStarts B

/-- What `run` has put together when it calls the guest's `_start`. -/
def RuntimeEnv.start (cli : RunnerCli) (preopens : List (PreopenMapping B.Path)) : RuntimeEnv B where
  cli
  files := { preopens, files := .empty fileFdBase File }
  fileState := B.fileStart
  sockets := .empty socketFdBase B.Entry
  nextThreadId := 1

section
variable {ι : Type}

/-- The guest threads at work. -/
abbrev Guest (ι : Type) : Type := Crew B.Runner ι GuestCall Int64 ThreadStore (RuntimeEnv B)

/-- A step of a guest thread. -/
abbrev GuestMove (ι : Type) : Type := Crew.Move B.Runner ι GuestCall Int64 ThreadStore (RuntimeEnv B)

/-- The runs of the guest, from its main thread on. -/
abbrev GuestRun [DecidableEq ι] (main : ι) (cli : RunnerCli) (preopens : List (PreopenMapping B.Path)) :
    List (GuestMove B ι) → Guest B ι → Prop :=
  Crew.Run (guestRules B) (.alone main { networkAllowed := !cli.noNetwork } (.start B cli preopens))

end

end

/-! ## Shutdown -/

/-- The signals that the runner registers handlers for. -/
inductive Signal where
  | sigint
  | sigterm
  deriving DecidableEq, Repr

/-- What signal-hook does on a delivery, to the flag it was registered with. -/
inductive SignalAction where
  /-- `register_conditional_shutdown`: it exits with the status when the flag is set. -/
  | conditionalShutdown (status : Int32)
  /-- `register`: it sets the flag. -/
  | register
  deriving DecidableEq, Repr

/-- `install_shutdown_signal_handlers` on Unix, in the order of registration. -/
def installShutdownSignalHandlers : List (Signal × SignalAction) :=
  [(.sigint, .conditionalShutdown 1), (.sigint, .register), (.sigterm, .register)]

/-- The flag `shutdown_requested`, and the status the process was terminated with. -/
structure Shutdown where
  shutdownRequested : Bool
  exited : Option Int32
  deriving DecidableEq, Repr

/-- What sets the flag: a signal, or the import `request_shutdown`. -/
inductive ShutdownEvent where
  | signal (signal : Signal)
  | requestShutdown
  deriving DecidableEq, Repr

namespace Shutdown

/-- One registered action. -/
def act (s : Shutdown) : SignalAction → Shutdown
  | .conditionalShutdown status => if s.shutdownRequested then { s with exited := some status } else s
  | .register => { s with shutdownRequested := true }

/-- A delivery: the actions registered for the signal run in their order, unless the process has ended. -/
def deliver (handlers : List (Signal × SignalAction)) (s : Shutdown) (signal : Signal) : Shutdown :=
  handlers.foldl (fun s handler => if handler.1 = signal ∧ s.exited = none then s.act handler.2 else s) s

/-- One event. -/
def step (s : Shutdown) : ShutdownEvent → Shutdown
  | .signal signal => s.deliver installShutdownSignalHandlers signal
  | .requestShutdown => if s.exited = none then { s with shutdownRequested := true } else s

/-- What the events come to from the start of the process on. -/
def after (events : List ShutdownEvent) : Shutdown := events.foldl step ⟨false, none⟩

end Shutdown

end WasmtimeMysql
