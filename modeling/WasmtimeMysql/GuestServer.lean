import WasmtimeMysql.Lib.Loops
import WasmtimeMysql.Runner

/-!
# The listener threads of mysqld

What the port changes in `connection_acceptor.h`, `socket_connection.cc` and `mysqld.cc` for an orderly shutdown: the loop that accepts connections
asks the runner whether a shutdown was requested, it and the loop for the administration interface poll for a tenth of a second at a time, and
`kill_mysql` is an import of the runner. The body of a loop is a program; what it does with a socket that is ready is not part of the port, and is
one command. Signals, the import and the flag of mysqld come from outside, at any time.
-/

namespace WasmtimeMysql

open Effects

/-- The commands of the two loops. -/
inductive Listener.Cmd where
  /-- `connection_events_loop_aborted()` -/
  | connectionEventsLoopAborted
  /-- `waasmtime_mysql_shutdown_requested()` -/
  | shutdownRequested
  /-- `MYSQL_SOCKET_CONNECTION_POLL` of the sockets of the thread -/
  | poll (timeoutMs : Int32)
  /-- the rest of `listen_for_connection_event`, from `get_listen_socket` on: a `Channel_info`, unless it is null -/
  | accept
  /-- `process_new_connection` -/
  | processNewConnection (channelInfo : Nat)
  /-- the rest of a round of `handle_admin_socket`, and what that returns if it returns there -/
  | acceptAdmin
  deriving DecidableEq, Repr

/-- The answer to each. -/
@[reducible] def Listener.Cmd.Resp : Listener.Cmd → Type
  | .connectionEventsLoopAborted => Bool
  | .shutdownRequested => Int32
  | .poll _ => Int32
  | .accept => Option Nat
  | .processNewConnection _ => Unit
  | .acceptAdmin => Option Bool

@[reducible] def Listener : Sig := ⟨Listener.Cmd, Listener.Cmd.Resp⟩

/-- How a loop is left: its condition fails, or its function returns. -/
inductive ListenerEnd where
  | condition
  | returned (error : Bool)
  deriving DecidableEq, Repr

/-- `MYSQL_SOCKET_CONNECTION_POLL_TIMEOUT_MS` -/
def mysqlSocketConnectionPollTimeoutMs : Int32 := 100

/-- `listen_for_connection_event` -/
def listenForConnectionEvent : Prog Listener (Option Nat) := do
  let retval ← .cmd (S := Listener) (.poll mysqlSocketConnectionPollTimeoutMs)
  if retval < 0 then return none
  else
    let aborted ← .cmd (S := Listener) .connectionEventsLoopAborted
    if aborted then return none
    else if retval = 0 then return none
    else .cmd (S := Listener) .accept

/-- A round of `connection_event_loop`. -/
def connectionEventLoop : Prog Listener (Option ListenerEnd) := do
  let aborted ← .cmd (S := Listener) .connectionEventsLoopAborted
  if aborted then return some .condition
  else
    let requested ← .cmd (S := Listener) .shutdownRequested
    if requested ≠ 0 then return some .condition
    else
      match ← listenForConnectionEvent with
      | some channelInfo =>
        .cmd (S := Listener) (.processNewConnection channelInfo)
        return none
      | none => return none

/-- A round of the loop of `handle_admin_socket`. -/
def handleAdminSocket : Prog Listener (Option ListenerEnd) := do
  let aborted ← .cmd (S := Listener) .connectionEventsLoopAborted
  if aborted then return some .condition
  else
    let retval ← .cmd (S := Listener) (.poll mysqlSocketConnectionPollTimeoutMs)
    if retval < 0 then return some (.returned true)
    else if retval = 0 then return none
    else
      let aborted ← .cmd (S := Listener) .connectionEventsLoopAborted
      if aborted then return some (.returned false)
      else
        let returned ← .cmd (S := Listener) .acceptAdmin
        return returned.map .returned

/-! ## The process -/

/-- The two threads. -/
inductive ListenerThread where
  | acceptor
  | admin
  deriving DecidableEq, Repr

/-- The flag of the runner, and that of mysqld. -/
structure ServerFlags where
  shutdown : Shutdown
  aborted : Bool
  deriving DecidableEq, Repr

/-- What comes from outside of the two loops: what sets the flag of the runner, of which `kill_mysql` is the import, and mysqld's own flag. -/
inductive ServerEvent where
  | shutdown (e : ShutdownEvent)
  | setConnectionEventsLoopAborted (value : Bool)
  deriving DecidableEq, Repr

namespace ServerFlags

/-- What a command is answered. The import `shutdown_requested` converts the flag. -/
def Answers (s : ServerFlags) : (c : Listener.Cmd) → Listener.Resp c → Prop
  | .connectionEventsLoopAborted, r => r = s.aborted
  | .shutdownRequested, r => r = if s.shutdown.shutdownRequested then 1 else 0
  | _, _ => True

/-- Threads go on until the process has ended. -/
def machine : Machine Listener ServerFlags := fun s c r s' => s.shutdown.exited = none ∧ s.Answers c r ∧ s' = s

/-- What an event does. -/
def outside : ServerFlags → ServerEvent → ServerFlags → Prop
  | s, .shutdown e, s' => s' = { s with shutdown := s.shutdown.step e }
  | s, .setConnectionEventsLoopAborted value, s' => s' = { s with aborted := value }

end ServerFlags

/-- The rules of the two threads. -/
def serverRules : Loops.Rules Listener ListenerThread ServerEvent ListenerEnd ServerFlags where
  body
    | .acceptor => connectionEventLoop
    | .admin => handleAdminSocket
  machine := ServerFlags.machine
  outside := ServerFlags.outside

/-- The runs of the two threads, from when mysqld starts to listen. Some events may have come before. -/
abbrev ServerRun (events : List ShutdownEvent) (aborted : Bool) :
    List (Loops.Move Listener ListenerThread ServerEvent ListenerEnd ServerFlags) → Loops Listener ListenerThread ListenerEnd ServerFlags → Prop :=
  Loops.Run serverRules (Loops.start serverRules ⟨.after events, aborted⟩)

end WasmtimeMysql
