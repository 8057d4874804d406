/-!
# Programs over a signature of commands

A program issues commands and continues with the answers. What a command does is not part of the program: a machine says, for
each state and command, which answers are possible and which state each leads to. The same program then has a meaning over every
machine of its signature: a machine may fix the outcome of a command (a table lookup), leave it open within a contract (a system
call), or add state of its own (the kernel's objects). A program may also panic, which ends it without a value.

`Runs` is the big-step meaning, with the trace of commands and answers. `wp` is the weakest precondition it is proved through
(`wp_iff_runs`), and `Prog.Only` is the syntactic side: which commands can occur at all (`Runs.invariant_of_only`).
-/

namespace Effects

/-- The commands a program may issue, each with the type of the answer it receives. -/
structure Sig where
  Cmd : Type
  Resp : Cmd → Type

/-- The commands of two signatures. -/
@[reducible] def Sig.sum (S T : Sig) : Sig where
  Cmd := S.Cmd ⊕ T.Cmd
  Resp
    | .inl c => S.Resp c
    | .inr c => T.Resp c

/-- A program: a value, a panic, or a command and what follows each answer to it. -/
inductive Prog (S : Sig) (α : Type) where
  | ret (a : α)
  | panic
  | call (c : S.Cmd) (k : S.Resp c → Prog S α)

/-- How a run ends. -/
inductive Outcome (α : Type) where
  | returned (a : α)
  | panicked
  deriving DecidableEq, Repr

/-- The outcome with its value changed. -/
def Outcome.map {α β : Type} (f : α → β) : Outcome α → Outcome β
  | returned a => returned (f a)
  | panicked => panicked

/-- A result is mapped, ... -/
@[simp] theorem Outcome.map_returned {α β : Type} (f : α → β) (a : α) : (Outcome.returned a).map f = .returned (f a) := rfl

/-- ... a panic stays one. -/
@[simp] theorem Outcome.map_panicked {α β : Type} (f : α → β) : (Outcome.panicked : Outcome α).map f = .panicked := rfl

/-- A command with the answer it received. -/
abbrev Event (S : Sig) : Type := (c : S.Cmd) × S.Resp c

/-- Nothing follows from a reading of an event that gives nothing. -/
theorem forall_of_eq_none {α : Type} {P : α → Prop} {reading : Option α} (h : reading = none) (a : α) (ha : reading = some a) : P a := by
  rw [h] at ha
  cases ha

/-- What the commands of a signature do: from this state, this command may get this answer and lead to that state. -/
abbrev Machine (S : Sig) (σ : Type) : Type := σ → (c : S.Cmd) → S.Resp c → σ → Prop

variable {S T : Sig} {α β σ τ : Type}

namespace Prog

/-- Sequencing: what follows the first program's value. A panic ends both. -/
def bind : Prog S α → (α → Prog S β) → Prog S β
  | ret a, f => f a
  | panic, _ => panic
  | call c k, f => call c (fun r => (k r).bind f)

instance : Monad (Prog S) where
  pure := ret
  bind := bind

/-- The program that issues one command and returns its answer. -/
def cmd (c : S.Cmd) : Prog S (S.Resp c) := call c ret

/-- `pure` returns. -/
@[simp] theorem pure_eq (a : α) : (pure a : Prog S α) = ret a := rfl

/-- What is bound to a result runs with it. -/
@[simp] theorem ret_bind (a : α) (f : α → Prog S β) : (ret a >>= f) = f a := rfl

/-- Nothing runs after a panic. -/
@[simp] theorem panic_bind (f : α → Prog S β) : ((panic : Prog S α) >>= f) = panic := rfl

/-- What is bound to a command runs after its answer. -/
@[simp] theorem call_bind (c : S.Cmd) (k : S.Resp c → Prog S α) (f : α → Prog S β) :
    (call c k >>= f) = call c (fun r => k r >>= f) := rfl

/-- The same for a command alone. -/
@[simp] theorem cmd_bind (c : S.Cmd) (f : S.Resp c → Prog S α) : (cmd c >>= f) = call c f := rfl

/-- To return what was returned changes nothing. -/
theorem bind_ret (p : Prog S α) : (p >>= ret) = p := by
  induction p with
  | ret a => rfl
  | panic => rfl
  | call c k ih => exact congrArg (call c) (funext ih)

/-- Programs one after another, however they are grouped. -/
theorem bind_assoc {γ : Type} (p : Prog S α) (f : α → Prog S β) (g : β → Prog S γ) :
    (p >>= f >>= g) = (p >>= fun a => f a >>= g) := by
  induction p with
  | ret a => rfl
  | panic => rfl
  | call c k ih => exact congrArg (call c) (funext ih)

instance : LawfulMonad (Prog S) := LawfulMonad.mk' _ bind_ret (fun _ _ => rfl) bind_assoc

/-- Every command that can occur in the program, after any answers, satisfies `P`. -/
def Only (P : S.Cmd → Prop) : Prog S α → Prop
  | ret _ => True
  | panic => True
  | call c k => P c ∧ ∀ r, (k r).Only P

/-- A sequence issues only `P` when both parts do. -/
theorem Only.bind {P : S.Cmd → Prop} {p : Prog S α} {f : α → Prog S β} (hp : p.Only P) (hf : ∀ a, (f a).Only P) :
    (p >>= f).Only P := by
  induction p with
  | ret a => exact hf a
  | panic => trivial
  | call c k ih => exact ⟨hp.1, fun r => ih r (hp.2 r)⟩

/-- What issues only these commands issues only those. -/
theorem Only.mono {P Q : S.Cmd → Prop} {p : Prog S α} (hp : p.Only P) (h : ∀ c, P c → Q c) : p.Only Q := by
  induction p with
  | ret a => trivial
  | panic => trivial
  | call c k ih => exact ⟨h c hp.1, fun r => ih r (hp.2 r)⟩

/-- A step that may fail, and what follows either way. -/
theorem Only.attempt {ε : Type} {P : S.Cmd → Prop} {p : Prog S (Except ε α)} {k : Except ε α → Prog S β} (hp : p.Only P)
    (herr : ∀ e, (k (.error e)).Only P) (hok : ∀ a, (k (.ok a)).Only P) : (p >>= k).Only P := by
  refine hp.bind ?_
  rintro (e | a)
  · exact herr e
  · exact hok a

/-- Both branches issue these commands. -/
theorem Only.ite {P : S.Cmd → Prop} {b : Prop} [Decidable b] {p q : Prog S α} (hp : p.Only P) (hq : q.Only P) :
    (if b then p else q).Only P := by
  split
  · exact hp
  · exact hq

/-- A command and what follows it. -/
theorem Only.step {P : S.Cmd → Prop} {c : S.Cmd} {k : S.Resp c → Prog S α} (hc : P c) (hk : ∀ r, (k r).Only P) :
    (cmd c >>= k).Only P := ⟨hc, hk⟩

/-- The program does not panic and issues only commands satisfying `P`, whatever the answers. -/
def Quiet (P : S.Cmd → Prop) : Prog S α → Prop
  | ret _ => True
  | panic => False
  | call c k => P c ∧ ∀ r, (k r).Quiet P

/-- A sequence is quiet when both parts are. -/
theorem Quiet.bind {P : S.Cmd → Prop} {p : Prog S α} {f : α → Prog S β} (hp : p.Quiet P) (hf : ∀ a, (f a).Quiet P) :
    (p >>= f).Quiet P := by
  induction p with
  | ret a => exact hf a
  | panic => exact hp.elim
  | call c k ih => exact ⟨hp.1, fun r => ih r (hp.2 r)⟩

/-- One command of that kind. -/
theorem Quiet.cmd {P : S.Cmd → Prop} {c : S.Cmd} (hc : P c) : (Prog.cmd c).Quiet P := ⟨hc, fun _ => trivial⟩

end Prog

/-! ## Programs over a larger signature -/

namespace Prog

/-- The program over the commands of two signatures, of which it issues the first ones. -/
def inl : Prog S α → Prog (S.sum T) α
  | ret a => ret a
  | panic => panic
  | call c k => call (S := S.sum T) (.inl c) (fun r => (k r).inl)

/-- The program over the commands of two signatures, of which it issues the second ones. -/
def inr : Prog T α → Prog (S.sum T) α
  | ret a => ret a
  | panic => panic
  | call c k => call (S := S.sum T) (.inr c) (fun r => (k r).inr)

/-- The program with a program in the place of each command. -/
def through (h : (c : S.Cmd) → Prog T (S.Resp c)) : Prog S α → Prog T α
  | ret a => ret a
  | panic => panic
  | call c k => h c >>= fun r => (k r).through h

/-- A result is the same one level below. -/
@[simp] theorem through_ret (h : (c : S.Cmd) → Prog T (S.Resp c)) (a : α) : (ret a : Prog S α).through h = ret a := rfl

/-- A command is what stands for it. -/
@[simp] theorem through_cmd (h : (c : S.Cmd) → Prog T (S.Resp c)) (c : S.Cmd) : (cmd c).through h = h c := bind_ret (h c)

/-- Parts one after another stay so. -/
@[simp] theorem through_bind (h : (c : S.Cmd) → Prog T (S.Resp c)) (p : Prog S α) (f : α → Prog S β) :
    (p >>= f).through h = p.through h >>= fun a => (f a).through h := by
  induction p with
  | ret a => rfl
  | panic => rfl
  | call c k ih =>
    show (h c >>= fun r => (k r >>= f).through h) = (h c >>= fun r => (k r).through h) >>= fun a => (f a).through h
    simp only [ih]
    exact (bind_assoc _ _ _).symm

/-- The value at the end of the one program is changed as that of the other. -/
theorem through_map (h : (c : S.Cmd) → Prog T (S.Resp c)) (f : α → β) (p : Prog S α) : (f <$> p).through h = f <$> p.through h := by
  rw [← bind_pure_comp, ← bind_pure_comp, through_bind]
  rfl

end Prog

/-! ## Runs -/

/-- The big-step meaning of a program over a machine: a run from a state, with the commands it issued and their answers, how it
ended, and the state it left. -/
inductive Runs (M : Machine S σ) : Prog S α → σ → List (Event S) → Outcome α → σ → Prop where
  | ret (a : α) (s : σ) : Runs M (.ret a) s [] (.returned a) s
  | panic (s : σ) : Runs M .panic s [] .panicked s
  | call {c : S.Cmd} {k : S.Resp c → Prog S α} {s s₁ s₂ : σ} {r : S.Resp c} {tr : List (Event S)} {o : Outcome α} :
      M s c r s₁ → Runs M (k r) s₁ tr o s₂ → Runs M (.call c k) s (⟨c, r⟩ :: tr) o s₂

/-- A run that begins with a command, through a named state. -/
theorem Runs.via {M : Machine S σ} {c : S.Cmd} {k : S.Resp c → Prog S α} {s s₂ : σ} {r : S.Resp c} {tr : List (Event S)} {o : Outcome α}
    (s₁ : σ) (hm : M s c r s₁) (h : Runs M (k r) s₁ tr o s₂) : Runs M (.call c k) s (⟨c, r⟩ :: tr) o s₂ := .call hm h

/-- The weakest precondition: every run from the state ends with the trace, the outcome and the state satisfying `Q`. -/
def wp (M : Machine S σ) : Prog S α → (List (Event S) → Outcome α → σ → Prop) → σ → Prop
  | .ret a, Q, s => Q [] (.returned a) s
  | .panic, Q, s => Q [] .panicked s
  | .call c k, Q, s => ∀ r s₁, M s c r s₁ → wp M (k r) (fun tr => Q (⟨c, r⟩ :: tr)) s₁

section
variable {M : Machine S σ} {Q : List (Event S) → Outcome α → σ → Prop} {s : σ}

/-- A result has an empty trace. -/
@[simp] theorem wp_ret (a : α) : wp M (.ret a) Q s ↔ Q [] (.returned a) s := Iff.rfl

/-- So has a panic. -/
@[simp] theorem wp_panic : wp M .panic Q s ↔ Q [] .panicked s := Iff.rfl

/-- A precondition that holds covers every run. -/
theorem Runs.of_wp {p : Prog S α} {tr : List (Event S)} {o : Outcome α} {s' : σ} (hr : Runs M p s tr o s')
    (h : wp M p Q s) : Q tr o s' := by
  induction hr generalizing Q with
  | ret a s => exact h
  | panic s => exact h
  | call hm _ ih => exact ih (h _ _ hm)

/-- ... and it holds when every run is covered. -/
theorem wp_iff_runs {p : Prog S α} : wp M p Q s ↔ ∀ tr o s', Runs M p s tr o s' → Q tr o s' := by
  refine ⟨fun h tr o s' hr => hr.of_wp h, fun h => ?_⟩
  induction p generalizing s Q with
  | ret a => exact h _ _ _ (.ret a s)
  | panic => exact h _ _ _ (.panic s)
  | call c k ih => exact fun r s₁ hm => ih r fun tr o s' hr => h _ _ _ (.call hm hr)

/-- A single command: every answer the machine allows. -/
@[simp] theorem wp_cmd {c : S.Cmd} {Q : List (Event S) → Outcome (S.Resp c) → σ → Prop} :
    wp M (.cmd c) Q s ↔ ∀ r s₁, M s c r s₁ → Q [⟨c, r⟩] (.returned r) s₁ := Iff.rfl

/-- A weaker condition at the end is a weaker condition at the start. -/
theorem wp_mono {Q' : List (Event S) → Outcome α → σ → Prop} {p : Prog S α} (h : wp M p Q s)
    (hq : ∀ tr o s', Q tr o s' → Q' tr o s') : wp M p Q' s :=
  wp_iff_runs.mpr fun tr o s' hr => hq tr o s' (hr.of_wp h)

/-- Two facts about every run, at once. -/
theorem wp_and {Q' : List (Event S) → Outcome α → σ → Prop} {p : Prog S α} (h : wp M p Q s) (h' : wp M p Q' s) :
    wp M p (fun tr o s' => Q tr o s' ∧ Q' tr o s') s :=
  wp_iff_runs.mpr fun _ _ _ hr => ⟨hr.of_wp h, hr.of_wp h'⟩

end

/-- What a sequence needs after its first part: the second part's precondition, with the trace so far in front. -/
def wpNext (M : Machine S σ) (f : α → Prog S β) (Q : List (Event S) → Outcome β → σ → Prop) :
    List (Event S) → Outcome α → σ → Prop
  | tr, .returned a, s => wp M (f a) (fun tr' => Q (tr ++ tr')) s
  | tr, .panicked, s => Q tr .panicked s

/-- After a result the next program runs, ... -/
@[simp] theorem wpNext_returned {M : Machine S σ} {f : α → Prog S β} {Q : List (Event S) → Outcome β → σ → Prop}
    {tr : List (Event S)} {a : α} {s : σ} :
    wpNext M f Q tr (.returned a) s ↔ wp M (f a) (fun tr' => Q (tr ++ tr')) s := Iff.rfl

/-- ... after a panic none. -/
@[simp] theorem wpNext_panicked {M : Machine S σ} {f : α → Prog S β} {Q : List (Event S) → Outcome β → σ → Prop}
    {tr : List (Event S)} {s : σ} : wpNext M f Q tr .panicked s ↔ Q tr .panicked s := Iff.rfl

/-- The precondition of a sequence. -/
theorem wp_bind {M : Machine S σ} {p : Prog S α} {f : α → Prog S β} {Q : List (Event S) → Outcome β → σ → Prop} {s : σ} :
    wp M (p >>= f) Q s ↔ wp M p (wpNext M f Q) s := by
  induction p generalizing s Q with
  | ret a => rfl
  | panic => rfl
  | call c k ih =>
    refine forall_congr' fun r => forall_congr' fun s₁ => imp_congr_right fun _ => ?_
    refine (ih r).trans (Iff.of_eq (congrArg (fun R => wp M (k r) R s₁) ?_))
    funext tr o s'
    cases o <;> rfl

/-- The precondition of a program whose value is changed at the end. -/
@[simp] theorem wp_map {M : Machine S σ} {p : Prog S α} {f : α → β} {Q : List (Event S) → Outcome β → σ → Prop} {s : σ} :
    wp M (f <$> p) Q s ↔ wp M p (fun tr o => Q tr (o.map f)) s := by
  rw [← bind_pure_comp, wp_bind]
  refine Iff.of_eq (congrArg (fun R => wp M p R s) ?_)
  funext tr o s'
  cases o with
  | returned a => simp [wpNext]
  | panicked => rfl

/-- Every command has an answer. -/
def Machine.Total (M : Machine S σ) : Prop := ∀ s c, ∃ r s', M s c r s'

/-- When every command has an answer, a program has a run, and what every run satisfies one does. -/
theorem Machine.Total.exists_runs {M : Machine S σ} (hM : M.Total) {p : Prog S α} {s : σ}
    {Q : List (Event S) → Outcome α → σ → Prop} (h : wp M p Q s) : ∃ tr o s', Runs M p s tr o s' ∧ Q tr o s' := by
  induction p generalizing s Q with
  | ret a => exact ⟨[], .returned a, s, .ret a s, h⟩
  | panic => exact ⟨[], .panicked, s, .panic s, h⟩
  | call c k ih =>
    obtain ⟨r, s₁, hm⟩ := hM s c
    obtain ⟨tr, o, s', hrun, hq⟩ := ih r (h r s₁ hm)
    exact ⟨⟨c, r⟩ :: tr, o, s', .call hm hrun, hq⟩

/-- A quiet program settles nothing that is settled by panics and by other commands. -/
theorem wp_quiet {M : Machine S σ} (hM : M.Total) {P : S.Cmd → Prop} {R : Prop} {p : Prog S α} (hp : p.Quiet P) {s : σ}
    {Q : List (Event S) → Outcome α → Prop} (hQ : ∀ tr a, (∀ ev ∈ tr, P ev.1) → (Q tr (.returned a) ↔ R)) :
    wp M p (fun tr o _ => Q tr o) s ↔ R := by
  induction p generalizing s Q with
  | ret a => exact hQ [] a (by simp)
  | panic => exact hp.elim
  | call c k ih =>
    have hnext (r : S.Resp c) (s₁ : σ) : wp M (k r) (fun tr o _ => Q (⟨c, r⟩ :: tr) o) s₁ ↔ R := by
      refine ih r (hp.2 r) fun tr a htr => hQ _ a ?_
      intro ev hev
      rcases List.mem_cons.mp hev with rfl | hev
      · exact hp.1
      · exact htr ev hev
    constructor
    · intro h
      obtain ⟨r, s₁, hm⟩ := hM s c
      exact (hnext r s₁).mp (h r s₁ hm)
    · intro hR r s₁ _
      exact (hnext r s₁).mpr hR

/-- A run that issues only commands satisfying `P` keeps whatever those commands keep. -/
theorem Runs.invariant_of_only {M : Machine S σ} {P : S.Cmd → Prop} {I : σ → Prop} {p : Prog S α} {s s' : σ}
    {tr : List (Event S)} {o : Outcome α} (hr : Runs M p s tr o s') (hp : p.Only P)
    (hstep : ∀ s c r s₁, P c → M s c r s₁ → I s → I s₁) (hs : I s) : I s' := by
  induction hr with
  | ret a s => exact hs
  | panic s => exact hs
  | call hm _ ih => exact ih (hp.2 _) (hstep _ _ _ _ hp.1 hm hs)

/-- Every command of a run is one of those that can occur. -/
theorem wp_forall_only {M : Machine S σ} {P : S.Cmd → Prop} {p : Prog S α} (hp : p.Only P) {s : σ} :
    wp M p (fun tr _ _ => ∀ ev ∈ tr, P ev.1) s := by
  have hgo (pre : List (Event S)) (hpre : ∀ ev ∈ pre, P ev.1) : wp M p (fun tr _ _ => ∀ ev ∈ pre ++ tr, P ev.1) s := by
    induction p generalizing s pre with
    | ret a => simpa using hpre
    | panic => simpa using hpre
    | call c k ih =>
      intro r s₁ _
      have hnext := ih r (hp.2 r) (s := s₁) (pre ++ [⟨c, r⟩]) (by
        intro ev hev
        rcases List.mem_append.mp hev with hev | hev
        · exact hpre ev hev
        · rw [List.mem_singleton.mp hev]
          exact hp.1)
      simpa using hnext
  simpa using hgo [] nofun

/-- The same as a precondition. -/
theorem wp_of_only {M : Machine S σ} {P : S.Cmd → Prop} {I : σ → Prop} {p : Prog S α} {s : σ} (hp : p.Only P)
    (hstep : ∀ s c r s₁, P c → M s c r s₁ → I s → I s₁) (hs : I s) : wp M p (fun _ _ s' => I s') s :=
  wp_iff_runs.mpr fun _ _ _ hr => hr.invariant_of_only hp hstep hs

/-! ## Machines -/

/-- The machine that answers by a function. -/
def Machine.det (h : σ → (c : S.Cmd) → S.Resp c × σ) : Machine S σ := fun s c r s' => (r, s') = h s c

/-- The machine without a state whose answers are fixed beforehand. -/
def Machine.oracle (answer : (c : S.Cmd) → S.Resp c) : Machine S Unit := fun _ c r _ => r = answer c

/-- The machine without a state that may answer anything. -/
def Machine.any : Machine S Unit := fun _ _ _ _ => True

/-- Two machines side by side: a command of one leaves the state of the other alone. -/
def Machine.sum (M : Machine S σ) (N : Machine T τ) : Machine (S.sum T) (σ × τ)
  | s, .inl c, r, s' => M s.1 c r s'.1 ∧ s'.2 = s.2
  | s, .inr c, r, s' => N s.2 c r s'.2 ∧ s'.1 = s.1

/-- Where each of the programs gives a fixed answer and leaves the state alone, the whole program ends as with those answers, and its trace
is made of theirs. -/
theorem wp_through {M : Machine T τ} {h : (c : S.Cmd) → Prog T (S.Resp c)} {answer : (c : S.Cmd) → S.Resp c} {P : Event T → Prop} {t : τ}
    (hh : ∀ c, wp M (h c) (fun tr o t' => o = .returned (answer c) ∧ t' = t ∧ ∀ ev ∈ tr, P ev) t) (p : Prog S α) :
    wp M (p.through h) (fun tr o t' => (∃ tr', Runs (.oracle answer) p () tr' o ()) ∧ t' = t ∧ ∀ ev ∈ tr, P ev) t := by
  induction p with
  | ret a => exact ⟨⟨[], .ret a ()⟩, rfl, nofun⟩
  | panic => exact ⟨⟨[], .panic ()⟩, rfl, nofun⟩
  | call c k ih =>
    refine wp_bind.mpr (wp_mono (hh c) ?_)
    rintro tr o t' ⟨rfl, rfl, htr⟩
    refine wp_mono (ih (answer c)) ?_
    rintro tr₁ o t' ⟨⟨tr', hrun⟩, rfl, htr₁⟩
    refine ⟨⟨_, .call rfl hrun⟩, rfl, ?_⟩
    intro ev hev
    rcases List.mem_append.mp hev with hev | hev
    · exact htr ev hev
    · exact htr₁ ev hev

/-- What a step of a machine that answers by a function is. -/
theorem Machine.eq_of_det {h : σ → (c : S.Cmd) → S.Resp c × σ} {s s' : σ} {c : S.Cmd} {r : S.Resp c}
    (hm : Machine.det h s c r s') : r = (h s c).1 ∧ s' = (h s c).2 := ⟨congrArg Prod.fst hm, congrArg Prod.snd hm⟩

/-- Every step of a machine that answers by a function. -/
theorem Machine.forall_det {h : σ → (c : S.Cmd) → S.Resp c × σ} {s : σ} {c : S.Cmd} {P : S.Resp c → σ → Prop} :
    (∀ r s', Machine.det h s c r s' → P r s') ↔ P (h s c).1 (h s c).2 := by
  constructor
  · intro hall
    exact hall _ _ rfl
  · intro hp r s' hm
    obtain ⟨hr, hs⟩ := Machine.eq_of_det hm
    rw [hr, hs]
    exact hp

/-- Every step of a machine whose answers are fixed. -/
theorem Machine.forall_oracle {answer : (c : S.Cmd) → S.Resp c} {s : Unit} {c : S.Cmd} {P : S.Resp c → Unit → Prop} :
    (∀ r s', Machine.oracle answer s c r s' → P r s') ↔ P (answer c) () := by
  constructor
  · intro hall
    exact hall _ () rfl
  · rintro hp r s' rfl
    exact hp

section
variable {M : Machine S σ} {N : Machine T τ} {s : σ} {t : τ}

/-- A command of the first machine. -/
theorem wp_inl {c : S.Cmd} {Q : List (Event (S.sum T)) → Outcome (S.Resp c) → σ × τ → Prop} :
    wp (M.sum N) (.cmd (S := S.sum T) (.inl c)) Q (s, t) ↔
      ∀ r s', M s c r s' → Q [⟨.inl c, r⟩] (.returned r) (s', t) := by
  constructor
  · intro h r s' hm
    exact h r (s', t) ⟨hm, rfl⟩
  · rintro h r ⟨s', t'⟩ ⟨hm, ht⟩
    cases ht
    exact h r s' hm

/-- A command of the second machine. -/
theorem wp_inr {c : T.Cmd} {Q : List (Event (S.sum T)) → Outcome (T.Resp c) → σ × τ → Prop} :
    wp (M.sum N) (.cmd (S := S.sum T) (.inr c)) Q (s, t) ↔
      ∀ r t', N t c r t' → Q [⟨.inr c, r⟩] (.returned r) (s, t') := by
  constructor
  · intro h r t' hm
    exact h r (s, t') ⟨hm, rfl⟩
  · rintro h r ⟨s', t'⟩ ⟨hm, hs⟩
    cases hs
    exact h r t' hm

end

/-- A function has an answer to everything, ... -/
theorem Machine.total_det (h : σ → (c : S.Cmd) → S.Resp c × σ) : (Machine.det h).Total := fun s c => ⟨_, _, (rfl : _ = h s c)⟩

/-- ... so has an oracle, ... -/
theorem Machine.total_oracle (answer : (c : S.Cmd) → S.Resp c) : (Machine.oracle answer).Total := fun _ _ => ⟨_, (), rfl⟩

/-- ... and so have two machines side by side. -/
theorem Machine.Total.sum {M : Machine S σ} {N : Machine T τ} (hM : M.Total) (hN : N.Total) : (M.sum N).Total := by
  rintro ⟨s, t⟩ (c | c)
  · obtain ⟨r, s', h⟩ := hM s c
    exact ⟨r, (s', t), h, rfl⟩
  · obtain ⟨r, t', h⟩ := hN t c
    exact ⟨r, (s, t'), h, rfl⟩

/-! ## Running a program against a handler -/

/-- How the run ends in which every command is answered by a handler, if it answers them all. -/
def Prog.exec (h : σ → (c : S.Cmd) → Option (S.Resp c × σ)) : Prog S α → σ → Option (Outcome α × σ)
  | .ret a, s => some (.returned a, s)
  | .panic, s => some (.panicked, s)
  | .call c k, s =>
    match h s c with
    | some (r, s₁) => (k r).exec h s₁
    | none => none

/-- A handler whose answers the machine allows, in the states it goes through, yields a run of the machine. -/
theorem Prog.exec_runs {M : Machine S σ} {h : σ → (c : S.Cmd) → Option (S.Resp c × σ)} {I : σ → Prop}
    (hM : ∀ s c r s', I s → h s c = some (r, s') → M s c r s' ∧ I s') {p : Prog S α} {s s' : σ} {o : Outcome α} (hs : I s)
    (hexec : p.exec h s = some (o, s')) : (∃ tr, Runs M p s tr o s') ∧ I s' := by
  induction p generalizing s with
  | ret a =>
    cases hexec
    exact ⟨⟨[], .ret a _⟩, hs⟩
  | panic =>
    cases hexec
    exact ⟨⟨[], .panic _⟩, hs⟩
  | call c k ih =>
    rw [Prog.exec] at hexec
    cases hh : h s c with
    | none =>
      rw [hh] at hexec
      cases hexec
    | some answer =>
      rw [hh] at hexec
      obtain ⟨hstep, hs₁⟩ := hM s c _ _ hs hh
      obtain ⟨⟨tr, hrun⟩, hs'⟩ := ih answer.1 hs₁ hexec
      exact ⟨⟨_, .call hstep hrun⟩, hs'⟩

end Effects
