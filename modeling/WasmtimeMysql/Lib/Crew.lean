import Mathlib.Logic.Function.Basic
import WasmtimeMysql.Lib.Discipline

/-!
# Threads that start threads

A crew begins with one thread. A thread makes one call after another, each command is one step, and after it any thread may go on; the
answer to a command may start another thread. Every thread has a store of its own beside the state that all share.

`Crew.Run.invariant` is the rule for what every run keeps whose moves meet a guard. `Crew.Run.holds` is the rule for what is proved command
by command: of the shared state, of each store, and of what is left of each call. It holds for any number of threads and in any order of
their steps.
-/

namespace Effects

variable {S : Sig} {ι C V ℓ σ φ : Type}

/-- A call that is not finished: what it was answered so far, and what is left of its program. -/
structure Task (S : Sig) (C V : Type) where
  call : C
  past : List (Event S)
  rest : Prog S V

/-- What is left of a call obeys the discipline of the call, in the phase its past led to. -/
def Task.Obeys (D : C → Discipline S φ) (f₀ : C → φ) (Q : C → V → φ → Prop) (t : Task S C V) : Prop :=
  t.rest.Obeys (D t.call) (Q t.call) ((D t.call).after (f₀ t.call) t.past)

/-- A command it issues is allowed, and after an answer that is relied on the rest obeys. -/
theorem Task.Obeys.issue {D : C → Discipline S φ} {f₀ : C → φ} {Q : C → V → φ → Prop} {call : C} {past : List (Event S)} {c : S.Cmd}
    {k : S.Resp c → Prog S V} (h : Task.Obeys D f₀ Q ⟨call, past, .call c k⟩) :
    (D call).allows ((D call).after (f₀ call) past) c ∧
      ∀ r, (D call).relies c r → Task.Obeys D f₀ Q ⟨call, past ++ [⟨c, r⟩], k r⟩ := by
  refine ⟨h.1, ?_⟩
  intro r hr
  unfold Task.Obeys
  rw [Discipline.after_snoc]
  exact h.2 r hr

/-- ... and the call does not panic. -/
def Task.Delivers (D : C → Discipline S φ) (f₀ : C → φ) (Q : C → V → φ → Prop) (t : Task S C V) : Prop :=
  t.rest.Delivers (D t.call) (Q t.call) ((D t.call).after (f₀ t.call) t.past)

/-- A command it issues is allowed, and after an answer that is relied on the rest delivers. -/
theorem Task.Delivers.issue {D : C → Discipline S φ} {f₀ : C → φ} {Q : C → V → φ → Prop} {call : C} {past : List (Event S)} {c : S.Cmd}
    {k : S.Resp c → Prog S V} (h : Task.Delivers D f₀ Q ⟨call, past, .call c k⟩) :
    (D call).allows ((D call).after (f₀ call) past) c ∧
      ∀ r, (D call).relies c r → Task.Delivers D f₀ Q ⟨call, past ++ [⟨c, r⟩], k r⟩ := by
  refine ⟨h.1, ?_⟩
  intro r hr
  unfold Task.Delivers
  rw [Discipline.after_snoc]
  exact h.2 r hr

/-- A thread: its own store, and the call it makes. -/
structure Member (S : Sig) (C V ℓ : Type) where
  own : ℓ
  task : Option (Task S C V)

/-- The threads that have been started, and the state they share. -/
structure Crew (S : Sig) (ι C V ℓ σ : Type) where
  member : ι → Option (Member S C V ℓ)
  shared : σ

/-- What a call runs, what a command does for a thread with this store, and the store of the thread that an answer starts. -/
structure Crew.Rules (S : Sig) (C V ℓ σ : Type) where
  prog : C → Prog S V
  machine : ℓ → Machine S σ
  starts : σ → (c : S.Cmd) → S.Resp c → Option ℓ

/-- What a thread does in a step. -/
inductive Crew.Deed (S : Sig) (C V : Type) where
  | start (call : C)
  | issue (task : Task S C V) (c : S.Cmd) (r : S.Resp c)
  | finish (task : Task S C V) (o : Outcome V)

/-- A step of a crew. -/
structure Crew.Move (S : Sig) (ι C V ℓ σ : Type) where
  before : Crew S ι C V ℓ σ
  who : ι
  deed : Crew.Deed S C V
  after : Crew S ι C V ℓ σ

section
variable [DecidableEq ι]

/-- The crew with one thread replaced or added. -/
def Crew.put (P : Crew S ι C V ℓ σ) (i : ι) (m : Member S C V ℓ) : Crew S ι C V ℓ σ :=
  { P with member := Function.update P.member i (some m) }

/-- The thread that is put is there, ... -/
@[simp] theorem Crew.put_self (P : Crew S ι C V ℓ σ) (i : ι) (m : Member S C V ℓ) : (P.put i m).member i = some m := by
  simp only [Crew.put, Function.update_self]

/-- ... the others stay ... -/
theorem Crew.put_of_ne {P : Crew S ι C V ℓ σ} {i j : ι} {m : Member S C V ℓ} (h : j ≠ i) : (P.put i m).member j = P.member j := by
  simp only [Crew.put, Function.update_of_ne h]

/-- ... and so does the state. -/
@[simp] theorem Crew.put_shared (P : Crew S ι C V ℓ σ) (i : ι) (m : Member S C V ℓ) : (P.put i m).shared = P.shared := rfl

/-- A thread of the new crew is the one that was put there, or one of the old crew. -/
theorem Crew.member_put {P : Crew S ι C V ℓ σ} {i j : ι} {m m' : Member S C V ℓ} (h : (P.put i m).member j = some m') :
    (j = i ∧ m' = m) ∨ (j ≠ i ∧ P.member j = some m') := by
  by_cases hji : j = i
  · subst hji
    rw [Crew.put_self] at h
    exact .inl ⟨rfl, (Option.some.inj h).symm⟩
  · rw [Crew.put_of_ne hji] at h
    exact .inr ⟨hji, h⟩

/-- The crew of one thread. -/
def Crew.alone (i : ι) (l : ℓ) (s : σ) : Crew S ι C V ℓ σ := Crew.put ⟨fun _ => none, s⟩ i ⟨l, none⟩

/-- The steps of a thread. A panic ends the call as a value does. -/
inductive Crew.Step (R : Crew.Rules S C V ℓ σ) (P : Crew S ι C V ℓ σ) (i : ι) : Crew.Deed S C V → Crew S ι C V ℓ σ → Prop where
  | start {l : ℓ} (call : C) : P.member i = some ⟨l, none⟩ →
      Step R P i (.start call) (P.put i ⟨l, some ⟨call, [], R.prog call⟩⟩)
  | issue {l : ℓ} {call : C} {past : List (Event S)} {c : S.Cmd} {k : S.Resp c → Prog S V} {r : S.Resp c} {s' : σ} :
      P.member i = some ⟨l, some ⟨call, past, .call c k⟩⟩ → R.machine l P.shared c r s' → R.starts P.shared c r = none →
      Step R P i (.issue ⟨call, past, .call c k⟩ c r) { P.put i ⟨l, some ⟨call, past ++ [⟨c, r⟩], k r⟩⟩ with shared := s' }
  | spawn {l l' : ℓ} {call : C} {past : List (Event S)} {c : S.Cmd} {k : S.Resp c → Prog S V} {r : S.Resp c} {s' : σ} {j : ι} :
      P.member i = some ⟨l, some ⟨call, past, .call c k⟩⟩ → R.machine l P.shared c r s' → R.starts P.shared c r = some l' →
      P.member j = none →
      Step R P i (.issue ⟨call, past, .call c k⟩ c r)
        { (P.put j ⟨l', none⟩).put i ⟨l, some ⟨call, past ++ [⟨c, r⟩], k r⟩⟩ with shared := s' }
  | finish {l : ℓ} {call : C} {past : List (Event S)} {v : V} : P.member i = some ⟨l, some ⟨call, past, .ret v⟩⟩ →
      Step R P i (.finish ⟨call, past, .ret v⟩ (.returned v)) (P.put i ⟨l, none⟩)
  | abort {l : ℓ} {call : C} {past : List (Event S)} : P.member i = some ⟨l, some ⟨call, past, .panic⟩⟩ →
      Step R P i (.finish ⟨call, past, .panic⟩ .panicked) (P.put i ⟨l, none⟩)

/-- The runs of a crew, with their moves. -/
inductive Crew.Run (R : Crew.Rules S C V ℓ σ) (P₀ : Crew S ι C V ℓ σ) : List (Crew.Move S ι C V ℓ σ) → Crew S ι C V ℓ σ → Prop where
  | nil : Run R P₀ [] P₀
  | snoc {log : List (Crew.Move S ι C V ℓ σ)} (m : Crew.Move S ι C V ℓ σ) : Run R P₀ log m.before →
      Crew.Step R m.before m.who m.deed m.after → Run R P₀ (log ++ [m]) m.after

namespace Crew

variable {R : Rules S C V ℓ σ} {P₀ P : Crew S ι C V ℓ σ} {log : List (Move S ι C V ℓ σ)}

/-- A command is the first of what is left of the thread's call. -/
theorem Step.of_issue {P' : Crew S ι C V ℓ σ} {i : ι} {t : Task S C V} {c : S.Cmd} {r : S.Resp c} (h : Step R P i (.issue t c r) P') :
    ∃ l k s', P.member i = some ⟨l, some t⟩ ∧ t.rest = .call c k ∧ R.machine l P.shared c r s' := by
  cases h with
  | issue hi hm => exact ⟨_, _, _, hi, rfl, hm⟩
  | spawn hi hm => exact ⟨_, _, _, hi, rfl, hm⟩

/-- A call ends with what is left of it. -/
theorem Step.of_finish {P' : Crew S ι C V ℓ σ} {i : ι} {t : Task S C V} {o : Outcome V} (h : Step R P i (.finish t o) P') :
    ∃ l, P.member i = some ⟨l, some t⟩ ∧ ((∃ v, t.rest = .ret v ∧ o = .returned v) ∨ (t.rest = .panic ∧ o = .panicked)) := by
  cases h with
  | finish hi => exact ⟨_, hi, .inl ⟨_, rfl, rfl⟩⟩
  | abort hi => exact ⟨_, hi, .inr ⟨rfl, rfl⟩⟩

/-- What holds at the start and is kept by every move that meets the guard holds at the end of a run whose moves meet it. It may look at
the moves so far. -/
theorem Run.invariant {G : Move S ι C V ℓ σ → Prop} {I : List (Move S ι C V ℓ σ) → Crew S ι C V ℓ σ → Prop} (hnil : I [] P₀)
    (hstep : ∀ log m, I log m.before → G m → Step R m.before m.who m.deed m.after → I (log ++ [m]) m.after)
    (h : Run R P₀ log P) (hG : ∀ m ∈ log, G m) : I log P := by
  induction h with
  | nil => exact hnil
  | @snoc log m _ hmove ih =>
    have hlog : ∀ m' ∈ log, G m' := fun m' hm' => hG m' (List.mem_append_left _ hm')
    exact hstep log m (ih hlog) (hG m (List.mem_append_right _ List.mem_cons_self)) hmove

/-- What holds of every crew that is reached by moves that meet a guard holds before every such move. -/
theorem Run.before {G : Move S ι C V ℓ σ → Prop} {I : Crew S ι C V ℓ σ → Prop}
    (hI : ∀ log P, Run R P₀ log P → (∀ m ∈ log, G m) → I P) (h : Run R P₀ log P) (hG : ∀ m ∈ log, G m) :
    ∀ m ∈ log, I m.before ∧ Step R m.before m.who m.deed m.after := by
  induction h with
  | nil => exact fun m hm => nomatch hm
  | @snoc log m hrun hmove ih =>
    have hlog : ∀ m' ∈ log, G m' := fun m' hm' => hG m' (List.mem_append_left _ hm')
    intro m' hm'
    rcases List.mem_append.mp hm' with hm' | hm'
    · exact ih hlog m' hm'
    · cases List.mem_singleton.mp hm'
      exact ⟨hI _ _ hrun hlog, hmove⟩

/-! ## Calls made alone -/

/-- A run ends in one crew. -/
theorem Run.congr {P' : Crew S ι C V ℓ σ} (h : Run R P₀ log P) (hP : P = P') : Run R P₀ log P' := hP ▸ h

/-- The last thread put counts. -/
theorem put_put (P : Crew S ι C V ℓ σ) (i : ι) (m m' : Member S C V ℓ) (s : σ) :
    ({ P.put i m with shared := s } : Crew S ι C V ℓ σ).put i m' = ({ P with shared := s } : Crew S ι C V ℓ σ).put i m' := by
  simp only [put, Function.update_idem]

/-- To put a thread where it is changes nothing. -/
theorem put_same {i : ι} {m : Member S C V ℓ} (h : P.member i = some m) : P.put i m = P := by
  simp only [put, ← h, Function.update_eq_self]

/-- A run goes on with a call. -/
theorem Run.started {i : ι} {l : ℓ} (h : Run R P₀ log P) (hi : P.member i = some ⟨l, none⟩) (call : C) :
    ∃ P', Run R P₀ (log ++ [⟨P, i, .start call, P'⟩]) P' ∧ P'.member i = some ⟨l, some ⟨call, [], R.prog call⟩⟩ ∧ P'.shared = P.shared ∧
      ∀ j, j ≠ i → P'.member j = P.member j :=
  ⟨_, h.snoc ⟨P, i, _, _⟩ (.start call hi), put_self _ _ _, rfl, fun _ => put_of_ne⟩

/-- A run goes on with a command that starts no thread. -/
theorem Run.issued {i : ι} {l : ℓ} {call : C} {past : List (Event S)} {c : S.Cmd} {k : S.Resp c → Prog S V} {r : S.Resp c} {s' : σ}
    (h : Run R P₀ log P) (hi : P.member i = some ⟨l, some ⟨call, past, .call c k⟩⟩) (hm : R.machine l P.shared c r s')
    (hnone : R.starts P.shared c r = none) :
    ∃ P', Run R P₀ (log ++ [⟨P, i, .issue ⟨call, past, .call c k⟩ c r, P'⟩]) P' ∧
      P'.member i = some ⟨l, some ⟨call, past ++ [⟨c, r⟩], k r⟩⟩ ∧ P'.shared = s' ∧ ∀ j, j ≠ i → P'.member j = P.member j :=
  ⟨_, h.snoc ⟨P, i, _, _⟩ (.issue hi hm hnone), put_self _ _ _, rfl, fun _ => put_of_ne⟩

/-- A run goes on with a command that starts a thread. -/
theorem Run.spawned {i : ι} {l l' : ℓ} {call : C} {past : List (Event S)} {c : S.Cmd} {k : S.Resp c → Prog S V} {r : S.Resp c} {s' : σ}
    (h : Run R P₀ log P) (hi : P.member i = some ⟨l, some ⟨call, past, .call c k⟩⟩) (hm : R.machine l P.shared c r s')
    (hsome : R.starts P.shared c r = some l') {j : ι} (hj : P.member j = none) :
    ∃ P', Run R P₀ (log ++ [⟨P, i, .issue ⟨call, past, .call c k⟩ c r, P'⟩]) P' ∧
      P'.member i = some ⟨l, some ⟨call, past ++ [⟨c, r⟩], k r⟩⟩ ∧ P'.member j = some ⟨l', none⟩ ∧ P'.shared = s' ∧
      ∀ j', j' ≠ i → j' ≠ j → P'.member j' = P.member j' := by
  have hji : j ≠ i := by
    rintro rfl
    cases hi.symm.trans hj
  exact ⟨_, h.snoc ⟨P, i, _, _⟩ (.spawn hi hm hsome hj), put_self _ _ _, (put_of_ne hji).trans (put_self _ _ _), rfl,
    fun _ hi' hj' => (put_of_ne hi').trans (put_of_ne hj')⟩

/-- A run goes on with the end of a call. -/
theorem Run.finished {i : ι} {l : ℓ} {call : C} {past : List (Event S)} {v : V} (h : Run R P₀ log P)
    (hi : P.member i = some ⟨l, some ⟨call, past, .ret v⟩⟩) :
    ∃ P', Run R P₀ (log ++ [⟨P, i, .finish ⟨call, past, .ret v⟩ (.returned v), P'⟩]) P' ∧ P'.member i = some ⟨l, none⟩ ∧
      P'.shared = P.shared ∧ ∀ j, j ≠ i → P'.member j = P.member j :=
  ⟨_, h.snoc ⟨P, i, _, _⟩ (.finish hi), put_self _ _ _, rfl, fun _ => put_of_ne⟩

/-- What is left of a call can be run to its end while the other threads wait, if it starts no thread. -/
theorem Run.rest {i : ι} {l : ℓ} {call : C} {past tr : List (Event S)} {p : Prog S V} {o : Outcome V} {s s' : σ}
    (hrun : Runs (R.machine l) p s tr o s') (hquiet : ∀ ev ∈ tr, ∀ s, R.starts s ev.1 ev.2 = none) (h : Run R P₀ log P)
    (hs : P.shared = s) (hi : P.member i = some ⟨l, some ⟨call, past, p⟩⟩) :
    ∃ log', Run R P₀ (log ++ log') ({ P with shared := s' }.put i ⟨l, none⟩) := by
  induction hrun generalizing past log P with
  | ret a s =>
    subst hs
    exact ⟨_, h.snoc ⟨P, i, _, P.put i ⟨l, none⟩⟩ (.finish hi)⟩
  | panic s =>
    subst hs
    exact ⟨_, h.snoc ⟨P, i, _, P.put i ⟨l, none⟩⟩ (.abort hi)⟩
  | @call c k s s₁ s₂ r tr o hm _ ih =>
    subst hs
    have hnone := hquiet ⟨c, r⟩ List.mem_cons_self P.shared
    have hstep := h.snoc ⟨P, i, _, _⟩ (.issue hi hm hnone)
    obtain ⟨log', hlog'⟩ := ih (fun ev hev => hquiet ev (List.mem_cons_of_mem _ hev)) hstep rfl (put_self _ _ _)
    rw [List.append_assoc] at hlog'
    exact ⟨_, hlog'.congr (put_put P i _ _ s₂)⟩

/-- A call can be made while the other threads wait, if it starts no thread. -/
theorem Run.call {i : ι} {l : ℓ} {tr : List (Event S)} {o : Outcome V} {s' : σ} (h : Run R P₀ log P) (call : C)
    (hi : P.member i = some ⟨l, none⟩) (hrun : Runs (R.machine l) (R.prog call) P.shared tr o s')
    (hquiet : ∀ ev ∈ tr, ∀ s, R.starts s ev.1 ev.2 = none) : ∃ log', Run R P₀ (log ++ log') { P with shared := s' } := by
  have hstep := h.snoc ⟨P, i, _, _⟩ (.start call hi)
  obtain ⟨log', hlog'⟩ := hstep.rest hrun hquiet rfl (put_self _ _ _)
  rw [List.append_assoc] at hlog'
  have hsame : ({ P with shared := s' } : Crew S ι C V ℓ σ).put i ⟨l, none⟩ = { P with shared := s' } := put_same hi
  exact ⟨_, hlog'.congr ((put_put P i _ _ s').trans hsame)⟩

/-! ## What every thread keeps -/

section
variable (J : σ → Prop) (L : ℓ → Prop) (T : Task S C V → Prop)

/-- The shared state, the stores and the calls that are not finished are as they should be. -/
structure Holds (P : Crew S ι C V ℓ σ) : Prop where
  shared : J P.shared
  own : ∀ i m, P.member i = some m → L m.own
  task : ∀ i m t, P.member i = some m → m.task = some t → T t

variable {J L T}

omit [DecidableEq ι] in
/-- What holds of a thread of the crew. -/
theorem Holds.of_member {P : Crew S ι C V ℓ σ} (hP : Holds J L T P) {i : ι} {l : ℓ} {t : Task S C V}
    (h : P.member i = some ⟨l, some t⟩) : L l ∧ T t := ⟨hP.own i _ h, hP.task i _ t h rfl⟩

/-- A thread put into the crew. -/
theorem Holds.put {P : Crew S ι C V ℓ σ} (hP : Holds J L T P) (i : ι) {m : Member S C V ℓ} (hown : L m.own)
    (htask : ∀ t, m.task = some t → T t) : Holds J L T (P.put i m) := by
  refine ⟨hP.shared, ?_, ?_⟩
  · intro j m' hm'
    rcases member_put hm' with ⟨-, rfl⟩ | ⟨-, hm'⟩
    · exact hown
    · exact hP.own j m' hm'
  · intro j m' t hm' ht
    rcases member_put hm' with ⟨-, rfl⟩ | ⟨-, hm'⟩
    · exact htask t ht
    · exact hP.task j m' t hm' ht

omit [DecidableEq ι] in
/-- The state may be another one of which it holds. -/
theorem Holds.withShared {P : Crew S ι C V ℓ σ} (hP : Holds J L T P) {s' : σ} (hs : J s') : Holds J L T { P with shared := s' } :=
  ⟨hs, hP.own, hP.task⟩

/-- The crew of one thread, which makes no call yet. -/
theorem Holds.alone (i : ι) {l : ℓ} {s : σ} (hl : L l) (hs : J s) : Holds J L T (Crew.alone i l s : Crew S ι C V ℓ σ) := by
  have hempty : Holds J L T (⟨fun _ => none, s⟩ : Crew S ι C V ℓ σ) := ⟨hs, nofun, nofun⟩
  exact hempty.put i hl nofun

/-- One step keeps it, if its command does. -/
theorem Holds.step {g : σ → S.Cmd → Prop} (hprog : ∀ call, T ⟨call, [], R.prog call⟩)
    (hcmd : ∀ l s s' call past c k r, J s → L l → T ⟨call, past, .call c k⟩ → g s c → R.machine l s c r s' →
      T ⟨call, past ++ [⟨c, r⟩], k r⟩ ∧ J s')
    (hstarts : ∀ s c r l, J s → R.starts s c r = some l → L l) {P P' : Crew S ι C V ℓ σ} {i : ι} {deed : Deed S C V}
    (hP : Holds J L T P) (hg : ∀ t c r, deed = .issue t c r → g P.shared c) (hstep : Step R P i deed P') : Holds J L T P' := by
  cases hstep with
  | start call hi =>
    have hl := hP.own i _ hi
    refine hP.put i hl ?_
    intro t ht
    cases ht
    exact hprog call
  | @issue l call past c k r s' hi hm hnone =>
    obtain ⟨hl, ht⟩ := hP.of_member hi
    obtain ⟨ht', hs'⟩ := hcmd l _ s' call past c k r hP.shared hl ht (hg _ c r rfl) hm
    refine (hP.put i hl ?_).withShared hs'
    intro t ht
    cases ht
    exact ht'
  | @spawn l l' call past c k r s' j hi hm hsome hj =>
    obtain ⟨hl, ht⟩ := hP.of_member hi
    obtain ⟨ht', hs'⟩ := hcmd l _ s' call past c k r hP.shared hl ht (hg _ c r rfl) hm
    have hnew := hP.put j (m := ⟨l', none⟩) (hstarts _ c r l' hP.shared hsome) nofun
    refine (hnew.put i hl ?_).withShared hs'
    intro t ht
    cases ht
    exact ht'
  | finish hi =>
    have hl := hP.own i _ hi
    exact hP.put i hl nofun
  | abort hi =>
    have hl := hP.own i _ hi
    exact hP.put i hl nofun

/-- Every run keeps it whose commands meet the guard. -/
theorem Run.holds {g : σ → S.Cmd → Prop} (hprog : ∀ call, T ⟨call, [], R.prog call⟩)
    (hcmd : ∀ l s s' call past c k r, J s → L l → T ⟨call, past, .call c k⟩ → g s c → R.machine l s c r s' →
      T ⟨call, past ++ [⟨c, r⟩], k r⟩ ∧ J s')
    (hstarts : ∀ s c r l, J s → R.starts s c r = some l → L l) {i : ι} {l : ℓ} {s : σ} (hl : L l) (hs : J s)
    (h : Run R (Crew.alone i l s) log P) (hG : ∀ m ∈ log, ∀ t c r, m.deed = .issue t c r → g m.before.shared c) :
    Holds J L T P := by
  refine Run.invariant (I := fun _ P => Holds J L T P) (.alone i hl hs) ?_ h hG
  intro log m hbefore hg hmove
  exact hbefore.step hprog hcmd hstarts hg hmove

end

end Crew

end

end Effects
