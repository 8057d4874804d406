import WasmtimeMysql.Lib.Pool

/-!
# Registers that calls share

Calls of any number of threads store to registers that all of them share, and load from them. A register is live in what is left of a call
when the call may load it before it stores to it (`Prog.Live`). As long as no call stores to a register that is live in another one, every
call runs as if the registers were its own (`Pool.Run.isPrivate`).
-/

namespace Effects

variable {R : Type} {V : R → Type} {X : Sig} {ι C W α : Type}

/-- The commands on registers, beside those of another signature. -/
inductive RegisterCmd (V : R → Type) (X : Sig) where
  | load (r : R)
  | store (r : R) (v : V r)
  | other (c : X.Cmd)

@[reducible] def Registers (V : R → Type) (X : Sig) : Sig where
  Cmd := RegisterCmd V X
  Resp
    | .load r => V r
    | .store _ _ => Unit
    | .other c => X.Resp c

/-- The program may load the register before it stores to it. -/
def Prog.Live (r : R) : Prog (Registers V X) α → Prop
  | .ret _ => False
  | .panic => False
  | .call (.load r') k => r' = r ∨ ∃ v, (k v).Live r
  | .call (.store r' _) k => r' ≠ r ∧ (k ()).Live r
  | .call (.other _) k => ∃ a, (k a).Live r

theorem Prog.live_load {r r' : R} {k : V r' → Prog (Registers V X) α} :
    (Prog.call (S := Registers V X) (.load r') k).Live r ↔ r' = r ∨ ∃ v, (k v).Live r := Iff.rfl

theorem Prog.live_store {r r' : R} {v : V r'} {k : Unit → Prog (Registers V X) α} :
    (Prog.call (S := Registers V X) (.store r' v) k).Live r ↔ r' ≠ r ∧ (k ()).Live r := Iff.rfl

theorem Prog.live_other {r : R} {c : X.Cmd} {k : X.Resp c → Prog (Registers V X) α} :
    (Prog.call (S := Registers V X) (.other c) k).Live r ↔ ∃ a, (k a).Live r := Iff.rfl

variable [DecidableEq R]

/-- What the commands do, with fixed answers to the other ones. -/
def Registers.handle (answer : (c : X.Cmd) → X.Resp c) (s : (r : R) → V r) :
    (c : RegisterCmd V X) → (Registers V X).Resp c × ((r : R) → V r)
  | .load r => (s r, s)
  | .store r v => ((), Function.update s r v)
  | .other c => (answer c, s)

def registers (answer : (c : X.Cmd) → X.Resp c) : Machine (Registers V X) ((r : R) → V r) := .det (Registers.handle answer)

theorem total_registers (answer : (c : X.Cmd) → X.Resp c) : (registers (V := V) answer).Total := Machine.total_det _

section
variable {answer : (c : X.Cmd) → X.Resp c} {Q : List (Event (Registers V X)) → Outcome α → ((r : R) → V r) → Prop} {s : (r : R) → V r}

theorem wp_load {r : R} {k : V r → Prog (Registers V X) α} :
    wp (registers answer) (.call (S := Registers V X) (.load r) k) Q s ↔
      wp (registers answer) (k (s r)) (fun tr => Q (⟨.load r, s r⟩ :: tr)) s := Machine.forall_det

theorem wp_store {r : R} {v : V r} {k : Unit → Prog (Registers V X) α} :
    wp (registers answer) (.call (S := Registers V X) (.store r v) k) Q s ↔
      wp (registers answer) (k ()) (fun tr => Q (⟨.store r v, ()⟩ :: tr)) (Function.update s r v) := Machine.forall_det

theorem wp_other {c : X.Cmd} {k : X.Resp c → Prog (Registers V X) α} :
    wp (registers answer) (.call (S := Registers V X) (.other c) k) Q s ↔
      wp (registers answer) (k (answer c)) (fun tr => Q (⟨.other c, answer c⟩ :: tr)) s := Machine.forall_det

end

/-! ## Calls that leave each other alone -/

/-- A command with its answer, without the state. -/
def Issued.event {S : Sig} {σ : Type} (e : Issued S σ) : Event S := ⟨e.cmd, e.resp⟩

/-- The move stores to no register that is live in another call. -/
def Undisturbing (m : Move (Registers V X) ι C W ((r : R) → V r)) : Prop :=
  ∀ r v u, m.action = .issue (.store r v) u → ∀ j job, j ≠ m.who → m.before.job j = some job → ¬job.rest.Live r

/-- The call has gone on as with registers of its own, of which the live ones are as the shared ones: however its rest runs with them, that
is how the whole call runs from `s`. -/
def Job.IsPrivate (prog : C → Prog (Registers V X) W) (answer : (c : X.Cmd) → X.Resp c) (s shared : (r : R) → V r)
    (job : Job (Registers V X) C W ((r : R) → V r)) : Prop :=
  ∃ own : (r : R) → V r, (∀ r, job.rest.Live r → own r = shared r) ∧
    ∀ tr o s', Runs (registers answer) job.rest own tr o s' →
      Runs (registers answer) (prog job.call) s (job.past.map Issued.event ++ tr) o s'

namespace Job.IsPrivate

variable {prog : C → Prog (Registers V X) W} {answer : (c : X.Cmd) → X.Resp c} {s shared shared' : (r : R) → V r}

/-- A call begins with nothing that is live. -/
theorem start {call : C} (h : ∀ r, ¬(prog call).Live r) : IsPrivate prog answer s shared ⟨call, [], prog call⟩ :=
  ⟨s, fun r hr => absurd hr (h r), fun _ _ _ hrun => hrun⟩

/-- What happens to registers that are not live does not matter. -/
theorem frame {job : Job (Registers V X) C W ((r : R) → V r)} (h : job.IsPrivate prog answer s shared)
    (hsame : ∀ r, job.rest.Live r → shared' r = shared r) : job.IsPrivate prog answer s shared' := by
  obtain ⟨own, hown, hruns⟩ := h
  exact ⟨own, fun r hr => (hown r hr).trans (hsame r hr).symm, hruns⟩

/-- A command of the call's own. -/
theorem issue {call : C} {past : List (Issued (Registers V X) ((r : R) → V r))} {c : RegisterCmd V X}
    {k : (Registers V X).Resp c → Prog (Registers V X) W} (h : IsPrivate prog answer s shared ⟨call, past, .call c k⟩) :
    IsPrivate prog answer s (Registers.handle answer shared c).2
      ⟨call, past ++ [⟨shared, c, (Registers.handle answer shared c).1⟩], k (Registers.handle answer shared c).1⟩ := by
  obtain ⟨own, hown, hruns⟩ := h
  change ∀ r, (Prog.call c k).Live r → own r = shared r at hown
  have hstep {r : (Registers V X).Resp c} {own' : (r : R) → V r} (hm : registers answer own c r own') (tr : List (Event (Registers V X)))
      (o : Outcome W) (s' : (r : R) → V r) (hrun : Runs (registers answer) (k r) own' tr o s') :
      Runs (registers answer) (prog call) s ((past ++ [Issued.mk shared c r]).map Issued.event ++ tr) o s' := by
    rw [List.map_append, List.append_assoc]
    exact hruns _ o s' (.call hm hrun)
  cases c with
  | load r =>
    have hr : own r = shared r := hown r (Prog.live_load.mpr (.inl rfl))
    exact ⟨own, fun r' hr' => hown r' (Prog.live_load.mpr (.inr ⟨_, hr'⟩)), hstep (Prod.ext hr.symm rfl)⟩
  | store r v =>
    refine ⟨Function.update own r v, ?_, hstep rfl⟩
    intro r' hr'
    by_cases heq : r' = r
    · subst heq
      exact (Function.update_self ..).trans (Function.update_self ..).symm
    · have hlive := hown r' (Prog.live_store.mpr ⟨Ne.symm heq, hr'⟩)
      exact (Function.update_of_ne heq ..).trans (hlive.trans (Function.update_of_ne heq ..).symm)
  | other c => exact ⟨own, fun r' hr' => hown r' (Prog.live_other.mpr ⟨_, hr'⟩), hstep rfl⟩

/-- There is a run of the whole call that begins as the call did and goes on as its rest does. -/
theorem exists_runs {job : Job (Registers V X) C W ((r : R) → V r)} (h : job.IsPrivate prog answer s shared) :
    ∃ own tr o s', Runs (registers answer) job.rest own tr o s' ∧
      Runs (registers answer) (prog job.call) s (job.past.map Issued.event ++ tr) o s' := by
  obtain ⟨own, -, hruns⟩ := h
  obtain ⟨tr, o, s', hrun, -⟩ := (total_registers answer).exists_runs (p := job.rest) (s := own) (Q := fun _ _ _ => True)
    (wp_iff_runs.mpr fun _ _ _ _ => trivial)
  exact ⟨own, tr, o, s', hrun, hruns tr o s' hrun⟩

end Job.IsPrivate

/-- A command of another call leaves the live registers of a call alone. -/
theorem Undisturbing.handle_of_live {answer : (c : X.Cmd) → X.Resp c} {m : Move (Registers V X) ι C W ((r : R) → V r)} (hm : Undisturbing m)
    {c : RegisterCmd V X} {resp : (Registers V X).Resp c} (hact : m.action = .issue c resp) {j : ι}
    {job : Job (Registers V X) C W ((r : R) → V r)} (hj : j ≠ m.who) (hjob : m.before.job j = some job) {r : R} (hlive : job.rest.Live r) :
    (Registers.handle answer m.before.state c).2 r = m.before.state r := by
  cases c with
  | load r' => rfl
  | store r' v =>
    have hne : r ≠ r' := by
      rintro rfl
      exact hm r v resp hact j job hj hjob hlive
    exact Function.update_of_ne hne _ _
  | other c => rfl

variable [DecidableEq ι]

/-- As long as no move stores to a register that is live in another call, every call runs with registers of its own. -/
theorem Pool.Run.isPrivate {prog : C → Prog (Registers V X) W} {answer : (c : X.Cmd) → X.Resp c} {s : (r : R) → V r}
    (hfresh : ∀ call r, ¬(prog call).Live r) {log : List (Move (Registers V X) ι C W ((r : R) → V r))}
    {P : Pool (Registers V X) ι C W ((r : R) → V r)} (hrun : Pool.Run prog (registers answer) s log P)
    (hguard : ∀ m ∈ log, Undisturbing m) : ∀ i job, P.job i = some job → job.IsPrivate prog answer s P.state := by
  refine (hrun.invariant (G := Undisturbing) (I := fun P => ∀ i job, P.job i = some job → job.IsPrivate prog answer s P.state)
    nofun ?_ hguard).1
  rintro ⟨before, who, action, after⟩ ih hm hstep
  change ∀ i job, before.job i = some job → job.IsPrivate prog answer s before.state at ih
  change Pool.Step prog (registers answer) before who action after at hstep
  -- the other calls are where they were, the one that moves is as its step says
  have hput {i : ι} {job' : Option (Job (Registers V X) C W ((r : R) → V r))} {shared : (r : R) → V r}
      (hothers : ∀ j job, j ≠ i → before.job j = some job → job.IsPrivate prog answer s shared)
      (hself : ∀ job, job' = some job → job.IsPrivate prog answer s shared) (j : ι) (job : Job (Registers V X) C W ((r : R) → V r))
      (hjob : (before.setJob i job').job j = some job) : job.IsPrivate prog answer s shared := by
    rcases Pool.setJob_cases hjob with ⟨-, hput⟩ | ⟨hji, hjob⟩
    · exact hself job hput
    · exact hothers j job hji hjob
  cases hstep with
  | start call _ =>
    refine hput (fun j job _ => ih j job) ?_
    rintro job ⟨⟩
    exact .start (hfresh call)
  | issue hjob hmachine =>
    obtain ⟨rfl, rfl⟩ := Machine.eq_of_det hmachine
    refine hput ?_ ?_
    · intro j job hji hj
      exact (ih j job hj).frame fun r hlive => hm.handle_of_live rfl hji hj hlive
    · rintro job ⟨⟩
      exact (ih who _ hjob).issue
  | finish _ => exact hput (fun j job _ => ih j job) nofun
  | abort _ => exact hput (fun j job _ => ih j job) nofun

end Effects
