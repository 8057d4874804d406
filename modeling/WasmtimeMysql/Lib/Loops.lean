import Mathlib.Logic.Function.Basic
import WasmtimeMysql.Lib.Prog

/-!
# Threads that loop

A thread repeats the body of its loop. A round gives nothing when another one follows, and a value when the loop is left with it. The threads
share a state, a command is one step, and after it any thread may go on, or something outside of them changes the state.

`Prog.Costs` is a bound on what is left of a round, under what can be known of the answers. `Loops.Run.spends` is the rule for a loop whose
condition does not hold any more: a thread spends what is left of its round and one more look at the condition, whatever the others do.
`Loops.Run.left_cause` is the rule for why a loop was left.
-/

namespace Effects

variable {S : Sig} {ι ε α β σ : Type}

/-! ## What is left of a program -/

namespace Prog

/-- What holds of a program and of what is left of it after any answers. -/
def Everywhere (P : Prog S α → Prop) : Prog S α → Prop
  | ret a => P (ret a)
  | panic => P panic
  | call c k => P (call c k) ∧ ∀ r, (k r).Everywhere P

theorem Everywhere.here {P : Prog S α → Prop} {p : Prog S α} (h : p.Everywhere P) : P p := by
  cases p with
  | ret a => exact h
  | panic => exact h
  | call c k => exact h.1

theorem Everywhere.mono {P Q : Prog S α → Prop} (hPQ : ∀ p, P p → Q p) {p : Prog S α} (h : p.Everywhere P) : p.Everywhere Q := by
  induction p with
  | ret a => exact hPQ _ h
  | panic => exact hPQ _ h
  | call c k ih => exact ⟨hPQ _ h.1, fun r => ih r (h.2 r)⟩

/-- The program does not panic and stays within a budget when its answers can be relied on; what it returns is as it should be for what is left
of the budget. -/
def Costs (rely : (c : S.Cmd) → S.Resp c → Prop) (w : S.Cmd → Nat) (Q : α → Nat → Prop) : Prog S α → Nat → Prop
  | ret a, n => Q a n
  | panic, _ => False
  | call c k, n => w c ≤ n ∧ ∀ r, rely c r → (k r).Costs rely w Q (n - w c)

theorem Costs.ne_panic {rely : (c : S.Cmd) → S.Resp c → Prop} {w : S.Cmd → Nat} {Q : α → Nat → Prop} {p : Prog S α} {n : Nat}
    (h : p.Costs rely w Q n) : p ≠ panic := by
  rintro rfl
  exact h

theorem Costs.mono {rely : (c : S.Cmd) → S.Resp c → Prop} {w : S.Cmd → Nat} {Q Q' : α → Nat → Prop} (hQ : ∀ a n, Q a n → Q' a n) {p : Prog S α}
    {n : Nat} (h : p.Costs rely w Q n) : p.Costs rely w Q' n := by
  induction p generalizing n with
  | ret a => exact hQ a n h
  | panic => exact h
  | call c k ih => exact ⟨h.1, fun r hr => ih r (h.2 r hr)⟩

theorem Costs.weaken {rely : (c : S.Cmd) → S.Resp c → Prop} {w : S.Cmd → Nat} {Q : α → Nat → Prop} (hQ : ∀ a n n', n ≤ n' → Q a n → Q a n')
    {p : Prog S α} {n n' : Nat} (hn : n ≤ n') (h : p.Costs rely w Q n) : p.Costs rely w Q n' := by
  induction p generalizing n n' with
  | ret a => exact hQ a n n' hn h
  | panic => exact h
  | call c k ih =>
    refine ⟨Nat.le_trans h.1 hn, ?_⟩
    intro r hr
    exact ih r (Nat.sub_le_sub_right hn (w c)) (h.2 r hr)

/-- What is within a budget whatever the answers are stays so. -/
theorem Costs.everywhere {rely : (c : S.Cmd) → S.Resp c → Prop} {w : S.Cmd → Nat} {Q : α → Nat → Prop}
    (hQ : ∀ a n n', n ≤ n' → Q a n → Q a n') {p : Prog S α} {n : Nat} (h : p.Costs (fun _ _ => True) w Q n) :
    p.Everywhere fun p => p.Costs rely w Q n := by
  have hrely : ∀ {p : Prog S α} {n : Nat}, p.Costs (fun _ _ => True) w Q n → p.Costs rely w Q n := by
    intro p
    induction p with
    | ret a => exact id
    | panic => exact id
    | call c k ih => exact fun h => ⟨h.1, fun r _ => ih r (h.2 r trivial)⟩
  induction p with
  | ret a => exact h
  | panic => exact h
  | call c k ih => exact ⟨hrely h, fun r => ih r ((h.2 r trivial).weaken hQ (Nat.sub_le n (w c)))⟩

/-- The program returns a value that leaves the loop only right after an answer that is a cause for it; `now` says whether the last answer was. -/
def Leaves (cause : (c : S.Cmd) → S.Resp c → Prop) (now : Prop) : Prog S (Option α) → Prop
  | ret none => True
  | ret (some _) => now
  | panic => True
  | call c k => ∀ r, (k r).Leaves cause (cause c r)

theorem ite_bind {b : Prop} [Decidable b] (p q : Prog S α) (f : α → Prog S β) :
    ((if b then p else q) >>= f) = if b then p >>= f else q >>= f := by
  split <;> rfl

end Prog

/-! ## Runs -/

/-- Where a thread is: in a round of its loop, or out of it. -/
inductive Looping (S : Sig) (α : Type) where
  | inside (rest : Prog S (Option α))
  | left (a : α)

/-- Where a thread goes on when this is left of its round. -/
def Looping.on (body : Prog S (Option α)) : Prog S (Option α) → Looping S α
  | .ret none => .inside body
  | .ret (some a) => .left a
  | p => .inside p

/-- The threads, and the state they share. -/
structure Loops (S : Sig) (ι α σ : Type) where
  thread : ι → Looping S α
  state : σ

/-- The loop of each thread, what a command does, and what an event from outside does. -/
structure Loops.Rules (S : Sig) (ι ε α σ : Type) where
  body : ι → Prog S (Option α)
  machine : Machine S σ
  outside : σ → ε → σ → Prop

/-- A step: a thread issues its next command, or something happens outside of the threads. -/
inductive Loops.Deed (S : Sig) (ι ε : Type) where
  | issue (i : ι) (c : S.Cmd) (r : S.Resp c)
  | outside (e : ε)

/-- A step with what it found and what it left. -/
structure Loops.Move (S : Sig) (ι ε α σ : Type) where
  before : Loops S ι α σ
  deed : Loops.Deed S ι ε
  after : Loops S ι α σ

section
variable [DecidableEq ι]

/-- What a thread spent in a move. -/
def Loops.Move.spent (w : S.Cmd → Nat) (i : ι) (m : Loops.Move S ι ε α σ) : Nat :=
  match m.deed with
  | .issue j c _ => if j = i then w c else 0
  | .outside _ => 0

/-- What a thread spent in a run. -/
def Loops.spent (w : S.Cmd → Nat) (i : ι) (log : List (Loops.Move S ι ε α σ)) : Nat :=
  log.foldl (fun n m => n + m.spent w i) 0

/-- The steps. -/
inductive Loops.Step (R : Loops.Rules S ι ε α σ) (P : Loops S ι α σ) : Loops.Deed S ι ε → Loops S ι α σ → Prop where
  | issue {i : ι} {c : S.Cmd} {k : S.Resp c → Prog S (Option α)} {r : S.Resp c} {s' : σ} : P.thread i = .inside (.call c k) →
      R.machine P.state c r s' → Step R P (.issue i c r) ⟨Function.update P.thread i (.on (R.body i) (k r)), s'⟩
  | outside {e : ε} {s' : σ} : R.outside P.state e s' → Step R P (.outside e) { P with state := s' }

/-- The runs, with their moves. -/
inductive Loops.Run (R : Loops.Rules S ι ε α σ) (P₀ : Loops S ι α σ) : List (Loops.Move S ι ε α σ) → Loops S ι α σ → Prop where
  | nil : Run R P₀ [] P₀
  | snoc {log : List (Loops.Move S ι ε α σ)} (m : Loops.Move S ι ε α σ) : Run R P₀ log m.before → Loops.Step R m.before m.deed m.after →
      Run R P₀ (log ++ [m]) m.after

namespace Loops

/-- Every thread is at the start of a round. -/
def start (R : Rules S ι ε α σ) (s : σ) : Loops S ι α σ := ⟨fun i => .inside (R.body i), s⟩

variable {R : Rules S ι ε α σ} {P₀ P : Loops S ι α σ} {log : List (Move S ι ε α σ)}

/-- What holds at the start and is kept by every move holds at the end of a run. It may look at the moves so far. -/
theorem Run.invariant {I : List (Move S ι ε α σ) → Loops S ι α σ → Prop} (hnil : I [] P₀)
    (hstep : ∀ log P deed P', I log P → Step R P deed P' → I (log ++ [⟨P, deed, P'⟩]) P') (h : Run R P₀ log P) : I log P := by
  induction h with
  | nil => exact hnil
  | @snoc log m _ hmove ih => exact hstep log m.before m.deed m.after ih hmove

/-- Runs one after the other. -/
theorem Run.append {P' : Loops S ι α σ} {log' : List (Move S ι ε α σ)} (h : Run R P₀ log P) (h' : Run R P log' P') : Run R P₀ (log ++ log') P' := by
  induction h' with
  | nil =>
    rw [List.append_nil]
    exact h
  | snoc m _ hmove ih =>
    rw [← List.append_assoc]
    exact ih.snoc m hmove

/-- What the commands and the events keep of the state holds at the end of a run, if it held at some move. -/
theorem Run.since {J : σ → Prop} (hcmd : ∀ s c r s', J s → R.machine s c r s' → J s') (hout : ∀ s e s', J s → R.outside s e s' → J s')
    (h : Run R P₀ log P) {m : Move S ι ε α σ} (hm : m ∈ log) (hJ : J m.before.state) : J P.state := by
  induction h with
  | nil => cases hm
  | @snoc log last _ hmove ih =>
    have hbefore : J last.before.state := by
      rcases List.mem_append.mp hm with hm | hm
      · exact ih hm
      · rw [← List.mem_singleton.mp hm]
        exact hJ
    obtain ⟨before, deed, after⟩ := last
    simp only at hmove hbefore ⊢
    cases hmove with
    | issue _ hmachine => exact hcmd _ _ _ _ hbefore hmachine
    | outside hevent => exact hout _ _ _ hbefore hevent

/-- What is left of a round, if a thread is in one, ... -/
def Inside (P : Prog S (Option α) → Prop) : Looping S α → Prop
  | .inside p => P p
  | .left _ => True

/-- ... is as the body is everywhere. -/
theorem Run.inside {i : ι} {Q : Prog S (Option α) → Prop} (hbody : (R.body i).Everywhere Q) {s : σ} (h : Run R (start R s) log P) :
    Inside (Prog.Everywhere Q) (P.thread i) := by
  refine Run.invariant (I := fun _ P => Inside (Prog.Everywhere Q) (P.thread i)) ?_ ?_ h
  · exact hbody
  intro log before deed after hbefore hmove
  cases hmove with
  | outside _ => exact hbefore
  | @issue j c k r s' hj _ =>
    by_cases hij : i = j
    · subst hij
      simp only [Function.update_self]
      rw [hj] at hbefore
      have hrest := hbefore.2 r
      revert hrest
      cases k r with
      | ret v =>
        cases v with
        | none => exact fun _ => hbody
        | some a => exact fun _ => trivial
      | panic => exact id
      | call c' k' => exact id
    · simp only [Function.update_of_ne hij]
      exact hbefore

/-- A thread in a round has a command to issue, if every round begins with one and none panics. -/
theorem Run.issuing {i : ι} (hbody : ∀ v, R.body i ≠ .ret v) (hquiet : (R.body i).Everywhere (· ≠ .panic)) {s : σ} (h : Run R (start R s) log P) :
    Inside (fun p => ∃ c k, p = .call c k) (P.thread i) := by
  have hpanic := h.inside hquiet
  have hret : Inside (fun p => ∀ v, p ≠ .ret v) (P.thread i) := by
    refine Run.invariant (I := fun _ P => Inside (fun p => ∀ v, p ≠ .ret v) (P.thread i)) ?_ ?_ h
    · exact hbody
    intro log before deed after hbefore hmove
    cases hmove with
    | outside _ => exact hbefore
    | @issue j c k r s' hj _ =>
      by_cases hij : i = j
      · subst hij
        simp only [Function.update_self]
        cases k r with
        | ret v =>
          cases v with
          | none => exact hbody
          | some a => trivial
        | panic => exact fun v => nofun
        | call c' k' => exact fun v => nofun
      · simp only [Function.update_of_ne hij]
        exact hbefore
  revert hpanic hret
  cases P.thread i with
  | left a => exact fun _ _ => trivial
  | inside p =>
    intro hpanic hret
    cases p with
    | ret v => exact absurd rfl (hret v)
    | panic => exact absurd rfl hpanic.here
    | call c k => exact ⟨c, k, rfl⟩

/-! ## Why a loop was left -/

omit [DecidableEq ι] in
/-- A thread goes on as its loop does, or it has left it for a cause. -/
theorem leaves_on {cause : (c : S.Cmd) → S.Resp c → Prop} {now : Prop} {body p : Prog S (Option α)} (hbody : body.Leaves cause False)
    (h : p.Leaves cause now) : Inside (Prog.Leaves cause False) (.on body p) ∧ ∀ a, Looping.on body p = .left a → now := by
  cases p with
  | ret v =>
    cases v with
    | none => exact ⟨hbody, nofun⟩
    | some a => exact ⟨trivial, fun _ _ => h⟩
  | panic => exact ⟨trivial, nofun⟩
  | call c k => exact ⟨h, nofun⟩

/-- A thread that left its loop got an answer that is a cause for it. -/
theorem Run.left_cause {i : ι} {cause : (c : S.Cmd) → S.Resp c → Prop} (hbody : (R.body i).Leaves cause False) {s : σ}
    (h : Run R (start R s) log P) {a : α} (hleft : P.thread i = .left a) :
    ∃ m ∈ log, ∃ c r, m.deed = .issue i c r ∧ cause c r ∧ R.machine m.before.state c r m.after.state := by
  suffices hall : Inside (Prog.Leaves cause False) (P.thread i) ∧ ∀ a, P.thread i = .left a →
      ∃ m ∈ log, ∃ c r, m.deed = .issue i c r ∧ cause c r ∧ R.machine m.before.state c r m.after.state from hall.2 a hleft
  refine Run.invariant (I := fun log P => Inside (Prog.Leaves cause False) (P.thread i) ∧ ∀ a, P.thread i = .left a →
    ∃ m ∈ log, ∃ c r, m.deed = .issue i c r ∧ cause c r ∧ R.machine m.before.state c r m.after.state) ?_ ?_ h
  · exact ⟨hbody, nofun⟩
  rintro log before deed after ⟨hinside, hlog⟩ hmove
  have earlier : ∀ a, before.thread i = .left a → ∃ m ∈ log ++ [⟨before, deed, after⟩], ∃ c r, m.deed = .issue i c r ∧ cause c r ∧
      R.machine m.before.state c r m.after.state := by
    intro a hleft
    obtain ⟨m, hm, hcause⟩ := hlog a hleft
    exact ⟨m, List.mem_append_left _ hm, hcause⟩
  cases hmove with
  | outside _ => exact ⟨hinside, earlier⟩
  | @issue j c k r s' hj hm =>
    by_cases hij : i = j
    · subst hij
      rw [hj] at hinside
      obtain ⟨hinside, hnow⟩ := leaves_on hbody (hinside r)
      simp only [Function.update_self]
      refine ⟨hinside, ?_⟩
      intro a hleft
      exact ⟨_, List.mem_append_right _ List.mem_cons_self, c, r, rfl, hnow a hleft, hm⟩
    · simp only [Function.update_of_ne hij]
      exact ⟨hinside, earlier⟩

/-! ## What a thread still spends -/

@[simp] theorem spent_nil (w : S.Cmd → Nat) (i : ι) : spent w i ([] : List (Move S ι ε α σ)) = 0 := rfl

@[simp] theorem spent_snoc (w : S.Cmd → Nat) (i : ι) (log : List (Move S ι ε α σ)) (m : Move S ι ε α σ) :
    spent w i (log ++ [m]) = spent w i log + m.spent w i := by
  simp [spent]

section
variable {rely : (c : S.Cmd) → S.Resp c → Prop} {J : σ → Prop} {w : S.Cmd → Nat} {i : ι} {round : Nat}

/-- What is left of a round is within a budget that is enough for another round if one follows. -/
def Within (rely : (c : S.Cmd) → S.Resp c → Prop) (w : S.Cmd → Nat) (round : Nat) (n : Nat) : Looping S α → Prop :=
  Inside fun p => p.Costs rely w (fun v n => v = none → round ≤ n) n

/-- Where a thread goes on is within what is left of the budget, if a round that leaves the loop is. -/
theorem within_on {body : Prog S (Option α)} (hbody : body.Costs rely w (fun v _ => v ≠ none) round) {p : Prog S (Option α)} {n : Nat}
    (h : p.Costs rely w (fun v n => v = none → round ≤ n) n) : ∃ n' ≤ n, Within rely w round n' (.on body p) := by
  cases p with
  | ret v =>
    cases v with
    | none => exact ⟨round, h rfl, hbody.mono fun v _ hv hnone => absurd hnone hv⟩
    | some a => exact ⟨n, Nat.le_refl n, trivial⟩
  | panic => exact h.elim
  | call c k => exact ⟨n, Nat.le_refl n, h⟩

/-- From a state on in which the answers can be relied on, and a round leaves the loop, a thread spends no more than its budget. -/
theorem Run.spends (hcmd : ∀ s c r s', J s → R.machine s c r s' → rely c r ∧ J s') (hout : ∀ s e s', J s → R.outside s e s' → J s')
    (hbody : (R.body i).Costs rely w (fun v _ => v ≠ none) round) {n : Nat} (h : Run R P₀ log P) (hJ : J P₀.state)
    (hstart : Within rely w round n (P₀.thread i)) : ∃ rest, spent w i log + rest ≤ n ∧ Within rely w round rest (P.thread i) := by
  suffices hall : J P.state ∧ ∃ rest, spent w i log + rest ≤ n ∧ Within rely w round rest (P.thread i) from hall.2
  refine Run.invariant (I := fun log P => J P.state ∧ ∃ rest, spent w i log + rest ≤ n ∧ Within rely w round rest (P.thread i))
    ⟨hJ, n, by simp, hstart⟩ ?_ h
  rintro log before deed after ⟨hbefore, rest, hspent, hwithin⟩ hmove
  cases hmove with
  | outside he => exact ⟨hout _ _ _ hbefore he, rest, by simpa [Move.spent] using hspent, hwithin⟩
  | @issue j c k r s' hj hm =>
    obtain ⟨hr, hafter⟩ := hcmd _ _ _ _ hbefore hm
    refine ⟨hafter, ?_⟩
    by_cases hij : i = j
    · subst hij
      rw [hj] at hwithin
      obtain ⟨hw, hwithin⟩ := hwithin
      obtain ⟨rest', hle, hwithin⟩ := within_on hbody (hwithin r hr)
      refine ⟨rest', ?_, ?_⟩
      · simp only [spent_snoc, Move.spent, if_true]
        omega
      · simp only [Function.update_self]
        exact hwithin
    · refine ⟨rest, ?_, ?_⟩
      · simpa [Move.spent, Ne.symm hij] using hspent
      · simp only [Function.update_of_ne hij]
        exact hwithin

end

end Loops

end

end Effects
