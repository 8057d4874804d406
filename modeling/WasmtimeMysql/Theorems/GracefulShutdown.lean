import WasmtimeMysql.GuestServer
import WasmtimeMysql.Theorems.Shutdown

/-!
# A shutdown that is requested happens

However the two listener threads, the signals and the other threads of mysqld interleave: from a request on, mysqld looks for connections once
more at most, takes one more at most, and the thread that accepts them comes to the end of its loop in six steps of its own, unless a Ctrl+C ends
the process first; it does not leave the loop for nothing (`graceful_shutdown`). The thread of the administration interface does not hear of the
request: it goes on until mysqld's own flag is set or its poll fails.
-/

namespace WasmtimeMysql

open Effects

/-- A thread got this answer in the run. -/
def Saw (i : ListenerThread) (c : Listener.Cmd) (r : Listener.Resp c)
    (log : List (Loops.Move Listener ListenerThread ServerEvent ListenerEnd ServerFlags)) : Prop := ∃ m ∈ log, m.deed = .issue i c r

/-- The commands that are polls. -/
def isPoll : Listener.Cmd → Nat
  | .poll _ => 1
  | _ => 0

/-- The commands that take a connection. -/
def isConnection : Listener.Cmd → Nat
  | .processNewConnection _ => 1
  | _ => 0

namespace GracefulShutdownAux

open ShutdownAux

variable {log : List (Loops.Move Listener ListenerThread ServerEvent ListenerEnd ServerFlags)}
  {P₀ P : Loops Listener ListenerThread ListenerEnd ServerFlags}

/-! ### The flag -/

/-- A request is never taken back by an event, ... -/
theorem step_requested (s : Shutdown) (e : ShutdownEvent) (h : s.shutdownRequested = true) : (s.step e).shutdownRequested = true := by
  obtain ⟨requested, exited⟩ := s
  cases exited with
  | none =>
    rw [step_eq]
    split <;> rfl
  | some status => rw [step_of_exited (Option.some_ne_none status)]; exact h

/-- A request stays. -/
theorem requested_outside {s s' : ServerFlags} {e : ServerEvent} (h : s.shutdown.shutdownRequested = true) (hout : serverRules.outside s e s') :
    s'.shutdown.shutdownRequested = true := by
  cases e with
  | shutdown e =>
    cases hout
    exact step_requested _ e h
  | setConnectionEventsLoopAborted value =>
    cases hout
    exact h

/-- ... nor by a command of the server. -/
theorem requested_machine {s s' : ServerFlags} {c : Listener.Cmd} {r : Listener.Resp c} (h : s.shutdown.shutdownRequested = true)
    (hmachine : serverRules.machine s c r s') : s'.shutdown.shutdownRequested = true := by
  obtain ⟨-, -, rfl⟩ := hmachine
  exact h

/-- Only a Ctrl+C ends the process. -/
theorem step_exited {s : Shutdown} {e : ShutdownEvent} (h : s.exited = none) (hexit : (s.step e).exited ≠ none) : e = .signal .sigint := by
  obtain ⟨requested, exited⟩ := s
  cases h
  rw [step_eq] at hexit
  split at hexit
  · rename_i hsigint
    exact hsigint.1
  · exact absurd rfl hexit

/-- Only a Ctrl+C ends the process. -/
theorem after_exited {events : List ShutdownEvent} (h : (Shutdown.after events).exited ≠ none) : ShutdownEvent.signal .sigint ∈ events := by
  by_contra hnot
  exact h (exited_of_not_mem hnot)

/-- A run in which the process ends has a Ctrl+C, or it had ended before. -/
theorem run_exited (h : Loops.Run serverRules P₀ log P) (hrunning : P₀.state.shutdown.exited = none) (hexit : P.state.shutdown.exited ≠ none) :
    ∃ m ∈ log, m.deed = .outside (.shutdown (.signal .sigint)) := by
  revert hexit
  refine Loops.Run.invariant (I := fun log P => P.state.shutdown.exited ≠ none → ∃ m ∈ log, m.deed = .outside (.shutdown (.signal .sigint)))
    (absurd hrunning) ?_ h
  intro log before deed after ih hmove hexit
  by_cases hbefore : before.state.shutdown.exited = none
  · refine ⟨_, List.mem_append_right _ List.mem_cons_self, ?_⟩
    cases hmove with
    | issue _ hm =>
      obtain ⟨-, -, rfl⟩ := hm
      exact absurd hbefore hexit
    | @outside e s' hout =>
      cases e with
      | shutdown e =>
        cases hout
        rw [step_exited hbefore hexit]
      | setConnectionEventsLoopAborted value =>
        cases hout
        exact absurd hbefore hexit
  · obtain ⟨m, hm, hdeed⟩ := ih hbefore
    exact ⟨m, List.mem_append_left _ hm, hdeed⟩

/-! ### The loops -/

/-- What a round of the acceptor does with a connection. -/
def taking : Option Nat → Prog Listener (Option ListenerEnd)
  | some channelInfo => .call (S := Listener) (.processNewConnection channelInfo) fun _ => .ret none
  | none => .ret none

/-- What follows `listen_for_connection_event`. -/
theorem listen_bind {β : Type} (f : Option Nat → Prog Listener β) : (listenForConnectionEvent >>= f) =
    .call (S := Listener) (.poll 100) fun retval => if retval < 0 then f none else
      .call (S := Listener) .connectionEventsLoopAborted fun aborted =>
        if aborted then f none else if retval = 0 then f none else .call (S := Listener) .accept f := by
  have hlisten : listenForConnectionEvent = .call (S := Listener) (.poll 100) fun retval => if retval < 0 then .ret none else
      .call (S := Listener) .connectionEventsLoopAborted fun aborted =>
        if aborted then .ret none else if retval = 0 then .ret none else .call (S := Listener) .accept .ret := rfl
  simp only [hlisten, Prog.call_bind, Prog.ite_bind, Prog.ret_bind]

/-- A round of the acceptor. -/
theorem connectionEventLoop_eq : connectionEventLoop =
    .call (S := Listener) .connectionEventsLoopAborted fun aborted => if aborted then .ret (some .condition) else
      .call (S := Listener) .shutdownRequested fun requested => if requested ≠ 0 then .ret (some .condition) else
        listenForConnectionEvent >>= taking := rfl

/-- A round of the admin thread. -/
theorem handleAdminSocket_eq : handleAdminSocket =
    .call (S := Listener) .connectionEventsLoopAborted fun aborted => if aborted then .ret (some .condition) else
      .call (S := Listener) (.poll 100) fun retval => if retval < 0 then .ret (some (.returned true)) else if retval = 0 then .ret none else
        .call (S := Listener) .connectionEventsLoopAborted fun aborted => if aborted then .ret (some (.returned false)) else
          .call (S := Listener) .acceptAdmin fun returned => .ret (returned.map .returned) := rfl

/-! ### What the loops are left for -/

/-- Why the acceptor leaves its loop. -/
def acceptorCause : (c : Listener.Cmd) → Listener.Resp c → Prop
  | .connectionEventsLoopAborted, r => r = true
  | .shutdownRequested, r => r ≠ 0
  | _, _ => False

/-- Why the thread of the administration interface does. -/
def adminCause : (c : Listener.Cmd) → Listener.Resp c → Prop
  | .connectionEventsLoopAborted, r => r = true
  | .poll _, r => r < 0
  | .acceptAdmin, r => r ≠ none
  | _, _ => False

/-- To take a connection is no reason to leave. -/
theorem taking_leaves (now : Prop) (channelInfo : Option Nat) : (taking channelInfo).Leaves acceptorCause now := by
  cases channelInfo with
  | none => trivial
  | some channelInfo => exact fun _ => trivial

/-- The acceptor leaves for its causes only, ... -/
theorem acceptor_leaves : connectionEventLoop.Leaves acceptorCause False := by
  rw [connectionEventLoop_eq, listen_bind]
  intro aborted
  dsimp only
  split
  · rename_i haborted
    exact haborted
  intro requested
  dsimp only
  split
  · rename_i hrequested
    exact hrequested
  intro retval
  dsimp only
  split
  · exact taking_leaves _ none
  intro aborted
  dsimp only
  split
  · exact taking_leaves _ none
  split
  · exact taking_leaves _ none
  · exact fun channelInfo => taking_leaves _ channelInfo

/-- ... and the admin thread for its own. -/
theorem admin_leaves : handleAdminSocket.Leaves adminCause False := by
  rw [handleAdminSocket_eq]
  intro aborted
  dsimp only
  split
  · rename_i haborted
    exact haborted
  intro retval
  dsimp only
  split
  · rename_i hretval
    exact hretval
  split
  · trivial
  intro aborted
  dsimp only
  split
  · rename_i haborted
    exact haborted
  intro returned
  cases returned with
  | none => trivial
  | some error => exact Option.some_ne_none error

/-! ### What the acceptor still does -/

/-- The answers after a request. -/
def rely : (c : Listener.Cmd) → Listener.Resp c → Prop
  | .shutdownRequested, r => r ≠ 0
  | _, _ => True

section
variable {w : Listener.Cmd → Nat} {round : Nat}

/-- What a round costs that finds the request. -/
theorem acceptor_round (hround : w .connectionEventsLoopAborted + w .shutdownRequested ≤ round) :
    connectionEventLoop.Costs rely w (fun v _ => v ≠ none) round := by
  rw [connectionEventLoop_eq]
  refine ⟨by omega, ?_⟩
  intro aborted _
  dsimp only
  split
  · exact Option.some_ne_none _
  refine ⟨by omega, ?_⟩
  intro requested hrequested
  have hne : requested ≠ 0 := hrequested
  dsimp only
  rw [if_pos hne]
  exact Option.some_ne_none _

/-- What it costs to take a connection. -/
theorem taking_costs {n : Nat} (hn : ∀ channelInfo, w (.processNewConnection channelInfo) + round ≤ n) (channelInfo : Option Nat) :
    (taking channelInfo).Costs (fun _ _ => True) w (fun v n => v = none → round ≤ n) n := by
  have hround := hn 0
  cases channelInfo with
  | none =>
    intro _
    omega
  | some channelInfo =>
    have hn := hn channelInfo
    refine ⟨by omega, ?_⟩
    intro _ _ _
    omega

/-- What is left of a round that did not find it. -/
theorem listening_costs {n : Nat} (hn : ∀ channelInfo, w (.poll 100) + w .connectionEventsLoopAborted + w .accept +
      w (.processNewConnection channelInfo) + round ≤ n) :
    (listenForConnectionEvent >>= taking).Costs (fun _ _ => True) w (fun v n => v = none → round ≤ n) n := by
  have hround := hn 0
  have taken : ∀ {m}, (∀ channelInfo, w (.processNewConnection channelInfo) + round ≤ m) → ∀ channelInfo,
      (taking channelInfo).Costs (fun _ _ => True) w (fun v n => v = none → round ≤ n) m := fun hm => taking_costs hm
  rw [listen_bind]
  refine ⟨by omega, ?_⟩
  intro retval _
  dsimp only
  split
  · refine taken (fun channelInfo => ?_) none
    have hn := hn channelInfo
    omega
  refine ⟨by omega, ?_⟩
  intro aborted _
  dsimp only
  have hlater : ∀ channelInfo, w (.processNewConnection channelInfo) + round ≤
      n - w (.poll 100) - w .connectionEventsLoopAborted - w .accept := by
    intro channelInfo
    have hn := hn channelInfo
    omega
  have hsoon : ∀ channelInfo, w (.processNewConnection channelInfo) + round ≤ n - w (.poll 100) - w .connectionEventsLoopAborted :=
    fun channelInfo => Nat.le_trans (hlater channelInfo) (Nat.sub_le _ _)
  split
  · exact taken hsoon none
  split
  · exact taken hsoon none
  refine ⟨by omega, ?_⟩
  exact fun channelInfo _ => taken hlater channelInfo

/-- Wherever the acceptor is, when the request comes. -/
theorem acceptor_everywhere (hround : w .connectionEventsLoopAborted + w .shutdownRequested ≤ round) {n : Nat}
    (hn : ∀ channelInfo, w (.poll 100) + w .connectionEventsLoopAborted + w .accept + w (.processNewConnection channelInfo) + round ≤ n) :
    connectionEventLoop.Everywhere fun p => p.Costs rely w (fun v n => v = none → round ≤ n) n := by
  have hle := hn 0
  have hQ : ∀ (v : Option ListenerEnd) (n n' : Nat), n ≤ n' → (v = none → round ≤ n) → v = none → round ≤ n' :=
    fun _ _ _ hnn' h hv => Nat.le_trans (h hv) hnn'
  have hbody : connectionEventLoop.Costs rely w (fun v n => v = none → round ≤ n) n :=
    (Prog.Costs.mono (fun v _ hv hnone => absurd hnone hv) (acceptor_round hround)).weaken hQ (by omega)
  rw [connectionEventLoop_eq] at hbody ⊢
  refine ⟨hbody, ?_⟩
  intro aborted
  dsimp only
  split
  · exact nofun
  refine ⟨⟨by omega, ?_⟩, ?_⟩
  · intro requested hrequested
    have hne : requested ≠ 0 := hrequested
    dsimp only
    rw [if_pos hne]
    exact nofun
  · intro requested
    dsimp only
    split
    · exact nofun
    · exact (listening_costs hn).everywhere hQ

end

/-- What the acceptor spends from a request on. -/
theorem spends_after_request {events : List ShutdownEvent} {aborted : Bool} {before after : List (Loops.Move _ _ _ _ _)} {P₁ P₂ : Loops _ _ _ _}
    (h₁ : ServerRun events aborted before P₁) (hrequested : P₁.state.shutdown.shutdownRequested = true) (h₂ : Loops.Run serverRules P₁ after P₂)
    (w : Listener.Cmd → Nat) {n : Nat} (hn : ∀ channelInfo, w (.poll 100) + w .connectionEventsLoopAborted + w .accept +
      w (.processNewConnection channelInfo) + (w .connectionEventsLoopAborted + w .shutdownRequested) ≤ n) :
    Loops.spent w .acceptor after ≤ n := by
  have heverywhere := acceptor_everywhere (Nat.le_refl _) hn
  have hinside := h₁.inside (i := .acceptor) heverywhere
  have hwithin : Loops.Within rely w (w .connectionEventsLoopAborted + w .shutdownRequested) n (P₁.thread .acceptor) := by
    revert hinside
    cases P₁.thread .acceptor with
    | inside p => exact fun hinside => hinside.here
    | left v => exact fun _ => trivial
  have hrely : ∀ s c r s', s.shutdown.shutdownRequested = true → serverRules.machine s c r s' →
      rely c r ∧ s'.shutdown.shutdownRequested = true := by
    rintro s c r s' hs ⟨-, hr, rfl⟩
    refine ⟨?_, hs⟩
    cases c with
    | shutdownRequested =>
      have hone : r = 1 := hr.trans (if_pos hs)
      rw [hone]
      exact (by decide : (1 : Int32) ≠ 0)
    | _ => trivial
  obtain ⟨rest, hspent, -⟩ := h₂.spends (J := fun s => s.shutdown.shutdownRequested = true) hrely (fun s e s' => requested_outside)
    (acceptor_round (Nat.le_refl _)) hrequested hwithin
  exact Nat.le_trans (Nat.le_add_right _ _) hspent

/-- Every command gets an answer. -/
theorem exists_answer (s : ServerFlags) (c : Listener.Cmd) : ∃ r, s.Answers c r := by
  cases c with
  | connectionEventsLoopAborted => exact ⟨_, rfl⟩
  | shutdownRequested => exact ⟨_, rfl⟩
  | poll timeoutMs => exact ⟨0, trivial⟩
  | accept => exact ⟨none, trivial⟩
  | processNewConnection channelInfo => exact ⟨(), trivial⟩
  | acceptAdmin => exact ⟨none, trivial⟩

/-- The acceptor can go on, unless the process has ended. -/
theorem acceptor_goes_on {events : List ShutdownEvent} {aborted : Bool} (h : ServerRun events aborted log P)
    (hrunning : P.state.shutdown.exited = none) :
    (∃ v, P.thread .acceptor = .left v) ∨ ∃ c r P', Loops.Step serverRules P (.issue .acceptor c r) P' := by
  have hround : connectionEventLoop.Everywhere (· ≠ .panic) :=
    (acceptor_everywhere (w := fun _ => 0) (Nat.le_refl _) fun _ => Nat.le_refl 0).mono fun _ => Prog.Costs.ne_panic
  have hissuing := h.issuing (i := .acceptor) (fun v hret => by cases connectionEventLoop_eq.symm.trans hret) hround
  cases hthread : P.thread .acceptor with
  | left v => exact .inl ⟨v, rfl⟩
  | inside p =>
    right
    rw [hthread] at hissuing
    obtain ⟨c, k, rfl⟩ := hissuing
    obtain ⟨r, hr⟩ := exists_answer P.state c
    exact ⟨c, r, _, .issue hthread ⟨hrunning, hr, rfl⟩⟩

end GracefulShutdownAux

open GracefulShutdownAux in
/-- In every run of the listener threads: the acceptor leaves its loop after a request or an abort; the thread of the administration interface does
after an abort, or when its poll fails, or its round returns. And from a request on the acceptor issues six commands at most, one of them a poll
and one a new connection, and until it has left its loop it can go on, unless a Ctrl+C has ended the process. -/
theorem graceful_shutdown (events : List ShutdownEvent) (aborted : Bool)
    (before : List (Loops.Move Listener ListenerThread ServerEvent ListenerEnd ServerFlags))
    (P₁ : Loops Listener ListenerThread ListenerEnd ServerFlags)
    (h₁ : ServerRun events aborted before P₁) :
    (∀ v, P₁.thread .acceptor = .left v → P₁.state.shutdown.shutdownRequested = true ∨ Saw .acceptor .connectionEventsLoopAborted true before) ∧
    (∀ v, P₁.thread .admin = .left v → Saw .admin .connectionEventsLoopAborted true before ∨
      (∃ r, r < 0 ∧ ∃ timeoutMs, Saw .admin (.poll timeoutMs) r before) ∨ ∃ error, Saw .admin .acceptAdmin (some error) before) ∧
    (P₁.state.shutdown.shutdownRequested = true → ∀ after P₂, Loops.Run serverRules P₁ after P₂ →
      Loops.spent (fun _ => 1) .acceptor after ≤ 6 ∧ Loops.spent isPoll .acceptor after ≤ 1 ∧ Loops.spent isConnection .acceptor after ≤ 1 ∧
      ((∃ v, P₂.thread .acceptor = .left v) ∨ (∃ c r P₃, Loops.Step serverRules P₂ (.issue .acceptor c r) P₃) ∨
        ShutdownEvent.signal .sigint ∈ events ∨ ∃ m ∈ before ++ after, m.deed = .outside (.shutdown (.signal .sigint)))) := by
  refine ⟨?_, ?_, ?_⟩
  · intro v hleft
    obtain ⟨m, hm, c, r, hdeed, hcause, hmachine⟩ := h₁.left_cause (i := .acceptor) acceptor_leaves hleft
    cases c with
    | connectionEventsLoopAborted =>
      cases hcause
      exact .inr ⟨m, hm, hdeed⟩
    | shutdownRequested =>
      left
      refine h₁.since (J := fun s => s.shutdown.shutdownRequested = true) (fun _ _ _ _ => requested_machine) (fun _ _ _ => requested_outside) hm ?_
      obtain ⟨-, hr, -⟩ := hmachine
      by_contra hnot
      exact hcause (hr.trans (if_neg hnot))
    | _ => exact hcause.elim
  · intro v hleft
    obtain ⟨m, hm, c, r, hdeed, hcause, -⟩ := h₁.left_cause (i := .admin) admin_leaves hleft
    cases c with
    | connectionEventsLoopAborted =>
      cases hcause
      exact .inl ⟨m, hm, hdeed⟩
    | poll timeoutMs => exact .inr (.inl ⟨r, hcause, timeoutMs, m, hm, hdeed⟩)
    | acceptAdmin =>
      obtain ⟨error, rfl⟩ := Option.ne_none_iff_exists'.mp hcause
      exact .inr (.inr ⟨error, m, hm, hdeed⟩)
    | _ => exact hcause.elim
  · intro hrequested after P₂ h₂
    refine ⟨spends_after_request h₁ hrequested h₂ _ fun _ => Nat.le_refl 6, spends_after_request h₁ hrequested h₂ _ fun _ => Nat.le_refl 1,
      spends_after_request h₁ hrequested h₂ _ fun _ => Nat.le_refl 1, ?_⟩
    have h := h₁.append h₂
    by_cases hrunning : P₂.state.shutdown.exited = none
    · exact (acceptor_goes_on h hrunning).imp_right .inl
    · refine .inr (.inr ?_)
      by_cases hstart : (Shutdown.after events).exited = none
      · exact .inr (run_exited h hstart hrunning)
      · exact .inl (after_exited hstart)

namespace GracefulShutdownAux

/-- The acceptor is here, and the other thread has not begun. -/
def acceptorAt (s : ServerFlags) (t : Looping Listener ListenerEnd) : Loops Listener ListenerThread ListenerEnd ServerFlags where
  thread := Function.update (Loops.start serverRules s).thread .acceptor t
  state := s

/-- The acceptor is at work from the start. -/
theorem acceptorAt_start (s : ServerFlags) : Loops.start serverRules s = acceptorAt s (.inside connectionEventLoop) := by
  unfold acceptorAt
  rw [show Looping.inside connectionEventLoop = (Loops.start serverRules s).thread .acceptor from rfl, Function.update_eq_self]
  rfl

/-- A run goes on with a command of the acceptor. -/
theorem issued {s : ServerFlags} {c : Listener.Cmd} {k : Listener.Resp c → Prog Listener (Option ListenerEnd)} {t : Looping Listener ListenerEnd}
    (h : Loops.Run serverRules P₀ log (acceptorAt s (.inside (.call c k)))) (r : Listener.Resp c) (hrunning : s.shutdown.exited = none)
    (hr : s.Answers c r) (hnext : Looping.on connectionEventLoop (k r) = t) :
    Loops.Run serverRules P₀ (log ++ [⟨acceptorAt s (.inside (.call c k)), .issue .acceptor c r, acceptorAt s t⟩]) (acceptorAt s t) := by
  have hthread : (acceptorAt s (.inside (.call c k))).thread .acceptor = .inside (.call c k) := by
    simp only [acceptorAt, Function.update_self]
  have hstep : Loops.Step serverRules (acceptorAt s (.inside (.call c k))) (.issue .acceptor c r) _ := .issue hthread ⟨hrunning, hr, rfl⟩
  have hafter : Function.update (acceptorAt s (.inside (.call c k))).thread .acceptor (.on connectionEventLoop (k r)) = (acceptorAt s t).thread := by
    rw [hnext]
    exact Function.update_idem ..
  refine h.snoc ⟨acceptorAt s (.inside (.call c k)), .issue .acceptor c r, acceptorAt s t⟩ ?_
  rw [show serverRules.body .acceptor = connectionEventLoop from rfl, hafter] at hstep
  exact hstep

/-- The flags before and after the request below. -/
def requested (flag : Bool) : ServerFlags := ⟨⟨flag, none⟩, false⟩

/-- The acceptor has seen that there is no request ... -/
def listening : Looping Listener ListenerEnd := .inside (listenForConnectionEvent >>= taking)

/-- The run up to the loop. -/
theorem run_listening : ∃ log, ServerRun [] false log (acceptorAt (requested false) listening) := by
  have h₀ : ServerRun [] false [] (acceptorAt (requested false) (.inside connectionEventLoop)) := by
    rw [← acceptorAt_start]
    exact .nil
  rw [connectionEventLoop_eq] at h₀
  have h₁ := issued h₀ false rfl rfl (t := .inside _) rfl
  exact ⟨_, issued h₁ (0 : Int32) rfl rfl rfl⟩

end GracefulShutdownAux

open GracefulShutdownAux in
/-- A `SIGTERM` comes when the acceptor has just seen that there is no request: it polls and takes one more connection, and then it leaves its
loop, with its sixth command. -/
theorem graceful_shutdown_sigterm : ∃ before P₁ after P₂,
    ServerRun [] false before P₁ ∧ P₁.state.shutdown.shutdownRequested = true ∧ Loops.Run serverRules P₁ after P₂ ∧
    P₂.thread .acceptor = .left .condition ∧ Loops.spent isConnection .acceptor after = 1 ∧
    Loops.spent (fun _ => 1) .acceptor after = 6 ∧ Loops.spent isPoll .acceptor after ≤ 1 := by
  obtain ⟨log, h⟩ := run_listening
  have hevent : serverRules.outside (requested false) (.shutdown (.signal .sigterm)) (requested true) := rfl
  have hbefore := h.snoc ⟨_, .outside (.shutdown (.signal .sigterm)), acceptorAt (requested true) listening⟩ (.outside hevent)
  have h₀ : Loops.Run serverRules (acceptorAt (requested true) listening) [] (acceptorAt (requested true) listening) := .nil
  have h₁ := issued (c := .poll 100) h₀ (1 : Int32) rfl trivial (t := .inside _) rfl
  have h₂ := issued (c := .connectionEventsLoopAborted) h₁ false rfl rfl (t := .inside _) rfl
  have h₃ := issued (c := .accept) h₂ (some 7) rfl trivial (t := .inside _) rfl
  have h₄ := issued (c := .processNewConnection 7) h₃ () rfl trivial (t := .inside _) rfl
  have h₅ := issued (c := .connectionEventsLoopAborted) h₄ false rfl rfl (t := .inside _) rfl
  have h₆ := issued (c := .shutdownRequested) h₅ (1 : Int32) rfl rfl (t := .left .condition) rfl
  have hall := (graceful_shutdown [] false _ _ hbefore).2.2 rfl _ _ h₆
  refine ⟨_, _, _, _, hbefore, rfl, h₆, ?_, rfl, rfl, hall.2.1⟩
  simp only [acceptorAt, Function.update_self]

end WasmtimeMysql
