import Mathlib.Logic.Function.Basic
import WasmtimeMysql.Lib.Prog

/-!
# Threads over one state

Any number of threads run programs over one machine. A command is one step, and after it any thread may go on. A call that is not
finished is a job: what it has issued, with the state at each command, and what is left of its program. `Pool.Run` are the runs of
such a pool, and `Pool.Run.invariant` is the rule for what every run keeps whose moves meet a guard.
-/

namespace Effects

variable {S : Sig} {ι C V σ : Type}

/-! ## Runs -/

/-- A command that was issued, with its answer and the state it found. -/
structure Issued (S : Sig) (σ : Type) where
  before : σ
  cmd : S.Cmd
  resp : S.Resp cmd

/-- A call that is not finished. -/
structure Job (S : Sig) (C V σ : Type) where
  call : C
  past : List (Issued S σ)
  rest : Prog S V

/-- The jobs of the threads, and the state they share. -/
structure Pool (S : Sig) (ι C V σ : Type) where
  job : ι → Option (Job S C V σ)
  state : σ

/-- What a thread does in a step: it begins a call, it issues a command, or its call ends. -/
inductive Action (S : Sig) (C : Type) where
  | start (call : C)
  | issue (c : S.Cmd) (r : S.Resp c)
  | finish

/-- A step of a pool. -/
structure Move (S : Sig) (ι C V σ : Type) where
  before : Pool S ι C V σ
  who : ι
  action : Action S C
  after : Pool S ι C V σ

section
variable [DecidableEq ι]

/-- The pool with one thread's job replaced. -/
def Pool.setJob (P : Pool S ι C V σ) (i : ι) (j : Option (Job S C V σ)) : Pool S ι C V σ :=
  { P with job := Function.update P.job i j }

@[simp] theorem Pool.setJob_self (P : Pool S ι C V σ) (i : ι) (j : Option (Job S C V σ)) : (P.setJob i j).job i = j := by
  simp only [Pool.setJob, Function.update_self]

theorem Pool.setJob_of_ne {P : Pool S ι C V σ} {i i' : ι} {j : Option (Job S C V σ)} (h : i' ≠ i) :
    (P.setJob i j).job i' = P.job i' := by
  simp only [Pool.setJob, Function.update_of_ne h]

/-- A job of the new pool is the one that was put there, or that of another thread. -/
theorem Pool.setJob_cases {P : Pool S ι C V σ} {i x : ι} {j : Job S C V σ} {j' : Option (Job S C V σ)}
    (h : (P.setJob i j').job x = some j) : (x = i ∧ j' = some j) ∨ (x ≠ i ∧ P.job x = some j) := by
  by_cases hx : x = i
  · subst hx
    rw [Pool.setJob_self] at h
    exact .inl ⟨rfl, h⟩
  · rw [Pool.setJob_of_ne hx] at h
    exact .inr ⟨hx, h⟩

/-- A thread is the one that stepped, with its new job and phase, or another one, as it was. -/
theorem Pool.setJob_update_cases {φ : Type} {P : Pool S ι C V σ} {phase : ι → φ} {i x : ι} {j j' : Job S C V σ} {f' : φ}
    (h : (P.setJob i (some j')).job x = some j) :
    (x = i ∧ j = j' ∧ Function.update phase i f' x = f') ∨ (x ≠ i ∧ P.job x = some j ∧ Function.update phase i f' x = phase x) := by
  rcases Pool.setJob_cases h with ⟨rfl, hj⟩ | ⟨hx, hj⟩
  · exact .inl ⟨rfl, (Option.some.inj hj).symm, Function.update_self ..⟩
  · exact .inr ⟨hx, hj, Function.update_of_ne hx ..⟩

/-- The steps of a thread. A panic ends the call as a value does. -/
inductive Pool.Step (prog : C → Prog S V) (M : Machine S σ) (P : Pool S ι C V σ) (i : ι) :
    Action S C → Pool S ι C V σ → Prop where
  | start (call : C) : P.job i = none → Step prog M P i (.start call) (P.setJob i (some ⟨call, [], prog call⟩))
  | issue {call : C} {past : List (Issued S σ)} {c : S.Cmd} {k : S.Resp c → Prog S V} {r : S.Resp c} {s' : σ} :
      P.job i = some ⟨call, past, .call c k⟩ → M P.state c r s' →
      Step prog M P i (.issue c r) { P.setJob i (some ⟨call, past ++ [⟨P.state, c, r⟩], k r⟩) with state := s' }
  | finish {call : C} {past : List (Issued S σ)} {v : V} : P.job i = some ⟨call, past, .ret v⟩ →
      Step prog M P i .finish (P.setJob i none)
  | abort {call : C} {past : List (Issued S σ)} : P.job i = some ⟨call, past, .panic⟩ →
      Step prog M P i .finish (P.setJob i none)

/-- The runs of a pool from a state in which no call is going on, with their moves. -/
inductive Pool.Run (prog : C → Prog S V) (M : Machine S σ) (s : σ) : List (Move S ι C V σ) → Pool S ι C V σ → Prop where
  | nil : Run prog M s [] ⟨fun _ => none, s⟩
  | snoc {log : List (Move S ι C V σ)} (m : Move S ι C V σ) : Run prog M s log m.before →
      Pool.Step prog M m.before m.who m.action m.after → Run prog M s (log ++ [m]) m.after

section
variable {prog : C → Prog S V} {M : Machine S σ} {s : σ} {log : List (Move S ι C V σ)} {P : Pool S ι C V σ}

/-- A thread that is idle begins a call. -/
theorem Pool.Run.started (h : Pool.Run prog M s log P) (i : ι) (call : C) (hidle : P.job i = none) :
    Pool.Run prog M s (log ++ [⟨P, i, .start call, P.setJob i (some ⟨call, [], prog call⟩)⟩]) (P.setJob i (some ⟨call, [], prog call⟩)) :=
  h.snoc ⟨P, i, .start call, P.setJob i (some ⟨call, [], prog call⟩)⟩ (.start call hidle)

/-- A thread issues its next command. -/
theorem Pool.Run.issued (h : Pool.Run prog M s log P) (i : ι) {call : C} {past : List (Issued S σ)} {c : S.Cmd} {k : S.Resp c → Prog S V}
    (hjob : P.job i = some ⟨call, past, .call c k⟩) {r : S.Resp c} {s' : σ} (hM : M P.state c r s') :
    Pool.Run prog M s
      (log ++ [⟨P, i, .issue c r, { P.setJob i (some ⟨call, past ++ [⟨P.state, c, r⟩], k r⟩) with state := s' }⟩])
      { P.setJob i (some ⟨call, past ++ [⟨P.state, c, r⟩], k r⟩) with state := s' } :=
  h.snoc ⟨P, i, .issue c r, _⟩ (.issue hjob hM)

/-- A call ends. -/
theorem Pool.Run.finished (h : Pool.Run prog M s log P) (i : ι) {call : C} {past : List (Issued S σ)} {v : V}
    (hjob : P.job i = some ⟨call, past, .ret v⟩) : Pool.Run prog M s (log ++ [⟨P, i, .finish, P.setJob i none⟩]) (P.setJob i none) :=
  h.snoc ⟨P, i, .finish, P.setJob i none⟩ (.finish hjob)

end

/-- What holds at the start and is kept by every move that meets the guard holds before every move of a run whose moves meet it,
and at its end. -/
theorem Pool.Run.invariant {prog : C → Prog S V} {M : Machine S σ} {s : σ} {G : Move S ι C V σ → Prop}
    {I : Pool S ι C V σ → Prop} (hnil : I ⟨fun _ => none, s⟩)
    (hstep : ∀ m : Move S ι C V σ, I m.before → G m → Pool.Step prog M m.before m.who m.action m.after → I m.after)
    {log : List (Move S ι C V σ)} {P : Pool S ι C V σ} (h : Pool.Run prog M s log P) (hG : ∀ m ∈ log, G m) :
    I P ∧ ∀ m ∈ log, I m.before ∧ Pool.Step prog M m.before m.who m.action m.after := by
  induction h with
  | nil => exact ⟨hnil, fun m hm => nomatch hm⟩
  | @snoc log m _ hmove ih =>
    have hlog : ∀ m' ∈ log, G m' := fun m' hm' => hG m' (List.mem_append_left _ hm')
    have hm : G m := hG m (List.mem_append_right _ List.mem_cons_self)
    obtain ⟨hbefore, hmoves⟩ := ih hlog
    refine ⟨hstep m hbefore hm hmove, ?_⟩
    intro m' hm'
    rcases List.mem_append.mp hm' with hm' | hm'
    · exact hmoves m' hm'
    · cases List.mem_singleton.mp hm'
      exact ⟨hbefore, hmove⟩

end

/-! ## Playing a run

A schedule says which thread goes on, and with which call when it begins one. A handler answers the commands.
-/

section
variable [DecidableEq ι]

/-- The next move of a thread. -/
def Pool.playStep (prog : C → Prog S V) (h : σ → (c : S.Cmd) → Option (S.Resp c × σ)) (P : Pool S ι C V σ) (i : ι) :
    Option C → Option (Move S ι C V σ)
  | some call =>
    match P.job i with
    | none => some ⟨P, i, .start call, P.setJob i (some ⟨call, [], prog call⟩)⟩
    | some _ => none
  | none =>
    match P.job i with
    | some ⟨call, past, .call c k⟩ =>
      match h P.state c with
      | some (r, s') => some ⟨P, i, .issue c r, { P.setJob i (some ⟨call, past ++ [⟨P.state, c, r⟩], k r⟩) with state := s' }⟩
      | none => none
    | some ⟨_, _, .ret _⟩ => some ⟨P, i, .finish, P.setJob i none⟩
    | some ⟨_, _, .panic⟩ => some ⟨P, i, .finish, P.setJob i none⟩
    | none => none

/-- The moves of a schedule, and the pool after them. -/
def Pool.play (prog : C → Prog S V) (h : σ → (c : S.Cmd) → Option (S.Resp c × σ)) :
    List (Move S ι C V σ) → Pool S ι C V σ → List (ι × Option C) → Option (List (Move S ι C V σ) × Pool S ι C V σ)
  | log, P, [] => some (log, P)
  | log, P, (i, call) :: schedule =>
    match P.playStep prog h i call with
    | some m => Pool.play prog h (log ++ [m]) m.after schedule
    | none => none

variable {prog : C → Prog S V} {M : Machine S σ} {h : σ → (c : S.Cmd) → Option (S.Resp c × σ)}

theorem Pool.playStep_step (hM : ∀ s c r s', h s c = some (r, s') → M s c r s') {P : Pool S ι C V σ} {i : ι} {call : Option C}
    {m : Move S ι C V σ} (hplay : P.playStep prog h i call = some m) :
    m.before = P ∧ Pool.Step prog M m.before m.who m.action m.after := by
  unfold Pool.playStep at hplay
  split at hplay
  · split at hplay
    · rename_i hnone
      cases hplay
      exact ⟨rfl, .start _ hnone⟩
    · cases hplay
  · split at hplay
    · rename_i hjob
      split at hplay
      · rename_i hh
        cases hplay
        exact ⟨rfl, .issue hjob (hM _ _ _ _ hh)⟩
      · cases hplay
    · rename_i hjob
      cases hplay
      exact ⟨rfl, .finish hjob⟩
    · rename_i hjob
      cases hplay
      exact ⟨rfl, .abort hjob⟩
    · cases hplay

/-- A handler whose answers the machine allows plays runs of the machine. -/
theorem Pool.Run.play (hM : ∀ s c r s', h s c = some (r, s') → M s c r s') {s : σ} {log log' : List (Move S ι C V σ)}
    {P P' : Pool S ι C V σ} {schedule : List (ι × Option C)} (hrun : Pool.Run prog M s log P)
    (hplay : Pool.play prog h log P schedule = some (log', P')) : Pool.Run prog M s log' P' := by
  induction schedule generalizing log P with
  | nil =>
    cases hplay
    exact hrun
  | cons step schedule ih =>
    obtain ⟨i, call⟩ := step
    rw [Pool.play] at hplay
    split at hplay
    · rename_i m hm
      obtain ⟨rfl, hstep⟩ := Pool.playStep_step hM hm
      exact ih (hrun.snoc m hstep) hplay
    · cases hplay

end

/-! ## A state that only remembers -/

/-- The machine with a second state that takes note of every command and that no answer depends on. -/
def Machine.noting {γ : Type} (M : Machine S σ) (note : σ → γ → (c : S.Cmd) → S.Resp c → γ) : Machine S (σ × γ) :=
  fun s c r s' => M s.1 c r s'.1 ∧ s'.2 = note s.1 s.2 c r

end Effects
