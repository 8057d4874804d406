import Mathlib.Logic.Function.Basic
import WasmtimeMysql.Lib.Prog

/-!
# Sessions of whole calls

Parties take turns: each call runs to its end before the next begins. A session is the log of such calls from a first state to a last,
with the state before and after each. `Session.invariant` is the rule by which anything is proved of every session whose calls meet a
guard; the guard of a call may look at the calls before it.

`Machine.party` puts the same kind of party at every index: each has a state of its own, and one state is shared.
-/

namespace Effects

variable {S : Sig} {ι C V σ : Type}

/-- One call of a session: who made it, how it ended, and the states around it. -/
structure Entry (ι C V σ : Type) where
  who : ι
  call : C
  before : σ
  result : Outcome V
  after : σ

/-- The sessions from a state, with their logs. -/
inductive Session (prog : C → Prog S V) (M : ι → Machine S σ) (s : σ) : List (Entry ι C V σ) → σ → Prop where
  | nil : Session prog M s [] s
  | snoc {log : List (Entry ι C V σ)} (e : Entry ι C V σ) {tr : List (Event S)} :
      Session prog M s log e.before → Runs (M e.who) (prog e.call) e.before tr e.result e.after →
      Session prog M s (log ++ [e]) e.after

/-- Every call of a log meets a guard, which may look at the calls before it. -/
def Meets (G : List (Entry ι C V σ) → Entry ι C V σ → Prop) (log : List (Entry ι C V σ)) : Prop :=
  ∀ pre e post, log = pre ++ e :: post → G pre e

/-- A call of a log with one more is the new one, after the whole log, or a call of the log, with the new one at the end. -/
theorem snoc_eq_split {α : Type} {log pre post : List α} {x e : α} (h : log ++ [x] = pre ++ e :: post) :
    (pre = log ∧ e = x) ∨ ∃ post', log = pre ++ e :: post' ∧ post = post' ++ [x] := by
  rcases List.eq_nil_or_concat post with rfl | ⟨post', y, rfl⟩
  · obtain ⟨hlog, he⟩ := List.append_inj' h rfl
    exact .inl ⟨hlog.symm, (List.cons.inj he).1.symm⟩
  · have hassoc : log ++ [x] = (pre ++ e :: post') ++ [y] := by simpa using h
    obtain ⟨hlog, hy⟩ := List.append_inj' hassoc rfl
    exact .inr ⟨post', hlog, by rw [(List.cons.inj hy).1, List.concat_eq_append]⟩

/-- A log with one more call meets the guard when the log does and the call does. -/
theorem meets_snoc {G : List (Entry ι C V σ) → Entry ι C V σ → Prop} {log : List (Entry ι C V σ)} {e : Entry ι C V σ} :
    Meets G (log ++ [e]) ↔ Meets G log ∧ G log e := by
  constructor
  · intro h
    refine ⟨?_, h log e [] rfl⟩
    intro pre e' post heq
    exact h pre e' (post ++ [e]) (by rw [heq]; simp)
  · rintro ⟨hlog, he⟩ pre e' post heq
    rcases snoc_eq_split heq with ⟨rfl, rfl⟩ | ⟨post', heq', -⟩
    · exact he
    · exact hlog pre e' post' heq'

/-- A log meets a guard when each of its calls does, after those that it took. -/
theorem meets_iff_getElem {G : List (Entry ι C V σ) → Entry ι C V σ → Prop} {log : List (Entry ι C V σ)} :
    Meets G log ↔ ∀ n (hn : n < log.length), G (log.take n) log[n] := by
  constructor
  · intro h n hn
    refine h (log.take n) log[n] (log.drop (n + 1)) ?_
    rw [← List.drop_eq_getElem_cons hn, List.take_append_drop]
  · intro h pre e post heq
    have hn : pre.length < log.length := by rw [heq]; simp
    have hguard := h pre.length hn
    subst heq
    simpa using hguard

namespace Session

variable {prog : C → Prog S V} {M : ι → Machine S σ} {s s' : σ} {log : List (Entry ι C V σ)}

/-- What holds at the start and is kept by every call that meets the guard holds at the end of a session whose calls meet it. -/
theorem invariant {G : List (Entry ι C V σ) → Entry ι C V σ → Prop} {I : List (Entry ι C V σ) → σ → Prop} (hnil : I [] s)
    (hsnoc : ∀ log e tr, I log e.before → G log e → Runs (M e.who) (prog e.call) e.before tr e.result e.after →
      I (log ++ [e]) e.after)
    (h : Session prog M s log s') (hG : Meets G log) : I log s' := by
  induction h with
  | nil => exact hnil
  | snoc e _ hrun ih =>
    obtain ⟨hlog, he⟩ := meets_snoc.mp hG
    exact hsnoc _ e _ (ih hlog) he hrun

/-- A call of a session: the session before it, and its run. -/
theorem split {pre post : List (Entry ι C V σ)} {e : Entry ι C V σ} (h : Session prog M s log s')
    (hlog : log = pre ++ e :: post) :
    Session prog M s pre e.before ∧ ∃ tr, Runs (M e.who) (prog e.call) e.before tr e.result e.after := by
  induction h generalizing post with
  | nil => simp at hlog
  | @snoc log e' tr hs hrun ih =>
    rcases snoc_eq_split hlog with ⟨rfl, rfl⟩ | ⟨post', hlog', -⟩
    · exact ⟨hs, tr, hrun⟩
    · exact ih hlog'

end Session

/-! ## Playing a session

A session can be played by a handler for each party, one call after another. What it comes to is then a matter of evaluation.
-/

/-- The log and the last state of a list of calls, each command answered by the party's handler. -/
def play (prog : C → Prog S V) (h : ι → σ → (c : S.Cmd) → Option (S.Resp c × σ)) :
    List (Entry ι C V σ) → σ → List (ι × C) → Option (List (Entry ι C V σ) × σ)
  | log, s, [] => some (log, s)
  | log, s, (i, c) :: calls =>
    match (prog c).exec (h i) s with
    | some (o, s') => play prog h (log ++ [⟨i, c, s, o, s'⟩]) s' calls
    | none => none

/-- Handlers whose answers the machines allow, in the states they go through, play sessions of the machines. -/
theorem Session.play {prog : C → Prog S V} {M : ι → Machine S σ} {h : ι → σ → (c : S.Cmd) → Option (S.Resp c × σ)}
    {I : σ → Prop} (hM : ∀ i s c r s', I s → h i s c = some (r, s') → M i s c r s' ∧ I s') {calls : List (ι × C)}
    {s₀ s s' : σ} {log log' : List (Entry ι C V σ)} (hs : Session prog M s₀ log s) (hI : I s)
    (hplay : Effects.play prog h log s calls = some (log', s')) : Session prog M s₀ log' s' := by
  induction calls generalizing s log with
  | nil =>
    cases hplay
    exact hs
  | cons call calls ih =>
    obtain ⟨i, c⟩ := call
    rw [Effects.play] at hplay
    split at hplay
    · rename_i o s₁ hexec
      obtain ⟨⟨tr, hrun⟩, hI₁⟩ := Prog.exec_runs (hM i) hI hexec
      exact ih (hs.snoc ⟨i, c, s, o, s₁⟩ hrun) hI₁ hplay
    · cases hplay

/-! ## Parties with a shared state -/

section
variable {ℓ κ τ : Type} [DecidableEq ι]

/-- Each party has a state of its own and all share one; `join` is the state a party's own machine sees. -/
def Machine.party (join : ℓ → κ → τ) (N : ι → Machine S τ) (i : ι) : Machine S ((ι → ℓ) × κ) :=
  fun s c r s' => ∃ x, N i (join (s.1 i) s.2) c r (join x s'.2) ∧ s'.1 = Function.update s.1 i x

/-- A run of a party is a run of its own machine, and leaves the state of the others alone. -/
theorem Runs.of_party {α : Type} {join : ℓ → κ → τ} {N : ι → Machine S τ} {i : ι} {p : Prog S α} {s s' : (ι → ℓ) × κ}
    {tr : List (Event S)} {o : Outcome α} (h : Runs (Machine.party join N i) p s tr o s') :
    ∃ x, Runs (N i) p (join (s.1 i) s.2) tr o (join x s'.2) ∧ s'.1 = Function.update s.1 i x := by
  induction h with
  | ret a s => exact ⟨s.1 i, .ret a _, by simp⟩
  | panic s => exact ⟨s.1 i, .panic _, by simp⟩
  | @call c k s s₁ s₂ r tr o hm _ ih =>
    obtain ⟨y, hy, hs₁⟩ := hm
    obtain ⟨x, hx, hs₂⟩ := ih
    rw [hs₁, Function.update_self] at hx
    refine ⟨x, .call hy hx, ?_⟩
    rw [hs₂, hs₁, Function.update_idem]

end

end Effects
