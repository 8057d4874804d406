import WasmtimeMysql.Lib.Prog

/-!
# Conversations

A caller makes one call after another. Each call is shown something of the caller's (its memory, say), which the caller may have changed in
any way since the last call, and leaves it changed. Two programs that are given the same inputs are compared exchange by exchange
(`Conversation.lockstep`): a relation between their states that every exchange keeps makes them return and leave the same.
-/

namespace Effects

variable {S S' : Sig} {C V γ τ τ' : Type}

/-- A run of a sequence, from runs of its parts. -/
theorem Runs.bind {α β σ : Type} {M : Machine S σ} {p : Prog S α} {f : α → Prog S β} {s s₁ s₂ : σ} {tr tr' : List (Event S)} {a : α}
    {o : Outcome β} (h : Runs M p s tr (.returned a) s₁) (h' : Runs M (f a) s₁ tr' o s₂) : Runs M (p >>= f) s (tr ++ tr') o s₂ := by
  generalize ho : Outcome.returned a = out at h
  induction h with
  | ret a s =>
    cases ho
    exact h'
  | panic s => cases ho
  | call hm _ ih => exact .call hm (ih h' ho)

/-- One call: what it was shown, the states around it, how it ended and what it left of what it was shown. -/
structure Exchange (C V γ τ : Type) where
  shown : γ
  call : C
  before : τ
  result : Outcome V
  left : γ
  after : τ

/-- What the caller put into it. -/
def Exchange.input (x : Exchange C V γ τ) : γ × C := (x.shown, x.call)

/-- What the caller got out of it. -/
def Exchange.output (x : Exchange C V γ τ) : Outcome V × γ := (x.result, x.left)

/-- The conversations from a state, with their exchanges. -/
inductive Conversation (prog : C → Prog S V) (M : Machine S (γ × τ)) (t : τ) : List (Exchange C V γ τ) → τ → Prop where
  | nil : Conversation prog M t [] t
  | snoc {log : List (Exchange C V γ τ)} (x : Exchange C V γ τ) {tr : List (Event S)} : Conversation prog M t log x.before →
      Runs M (prog x.call) (x.shown, x.before) tr x.result (x.left, x.after) → Conversation prog M t (log ++ [x]) x.after

/-- What holds at the start and is kept by every exchange that meets a guard, which tells something of it too, holds at the end of a
conversation whose exchanges meet the guard, and is told of each of them. -/
theorem Conversation.invariant {prog : C → Prog S V} {M : Machine S (γ × τ)} {I : τ → Prop} {G : C → Prop} {T : Exchange C V γ τ → Prop}
    {t₀ t : τ} {log : List (Exchange C V γ τ)} (hnil : I t₀)
    (hsnoc : ∀ x tr, I x.before → G x.call → Runs M (prog x.call) (x.shown, x.before) tr x.result (x.left, x.after) → I x.after ∧ T x)
    (h : Conversation prog M t₀ log t) (hG : ∀ x ∈ log, G x.call) : I t ∧ ∀ x ∈ log, T x := by
  induction h with
  | nil => exact ⟨hnil, nofun⟩
  | @snoc log x tr h hrun ih =>
    rw [List.forall_mem_append, List.forall_mem_singleton] at hG
    obtain ⟨hI, hT⟩ := ih hG.1
    obtain ⟨hafter, hx⟩ := hsnoc x tr hI hG.2 hrun
    refine ⟨hafter, ?_⟩
    rw [List.forall_mem_append, List.forall_mem_singleton]
    exact ⟨hT, hx⟩

/-- Two conversations with the same inputs have the same outputs, if the first meets a guard and every exchange that meets it keeps a
relation between the states. The relation may look at the inputs so far, the guard at the exchanges. -/
theorem Conversation.lockstep {prog : C → Prog S V} {prog' : C → Prog S' V} {M : Machine S (γ × τ)} {M' : Machine S' (γ × τ')}
    {I : List (γ × C) → τ → τ' → Prop} {G : List (Exchange C V γ τ) → Exchange C V γ τ → Prop} {t₀ t : τ} {t₀' t' : τ'}
    {log : List (Exchange C V γ τ)} {log' : List (Exchange C V γ τ')} (hnil : I [] t₀ t₀')
    (hsnoc : ∀ pre x (x' : Exchange C V γ τ') tr tr', I (pre.map Exchange.input) x.before x'.before → x.input = x'.input → G pre x →
      Runs M (prog x.call) (x.shown, x.before) tr x.result (x.left, x.after) →
      Runs M' (prog' x'.call) (x'.shown, x'.before) tr' x'.result (x'.left, x'.after) →
      x.output = x'.output ∧ I ((pre ++ [x]).map Exchange.input) x.after x'.after)
    (h : Conversation prog M t₀ log t) (h' : Conversation prog' M' t₀' log' t')
    (hinput : log.map Exchange.input = log'.map Exchange.input) (hG : ∀ pre x post, log = pre ++ x :: post → G pre x) :
    log.map Exchange.output = log'.map Exchange.output ∧ I (log.map Exchange.input) t t' := by
  induction h generalizing log' t' with
  | nil =>
    cases h' with
    | nil => exact ⟨rfl, hnil⟩
    | snoc x' => simp at hinput
  | @snoc log x tr h hrun ih =>
    cases h' with
    | nil => simp at hinput
    | @snoc log' x' tr' h' hrun' =>
      rw [List.map_append, List.map_append] at hinput
      obtain ⟨hlog, hx⟩ := List.append_inj' hinput rfl
      have hbefore : ∀ pre y post, log = pre ++ y :: post → G pre y := by
        intro pre y post heq
        exact hG pre y (post ++ [x]) (by rw [heq, List.append_assoc, List.cons_append])
      obtain ⟨houtput, hI⟩ := ih h' hlog hbefore
      obtain ⟨hout, hafter⟩ := hsnoc log x x' tr tr' hI (List.cons.inj hx).1 (hG log x [] rfl) hrun hrun'
      refine ⟨?_, hafter⟩
      rw [List.map_append, List.map_append, houtput, List.map_singleton, List.map_singleton, hout]

/-! ## Against a function -/

section
variable {σ : Type}

/-- What a function returns and leaves, call after call, and the state it ends in. -/
def replay (step : γ → σ → C → V × γ × σ) (s : σ) (inputs : List (γ × C)) : List (Outcome V × γ) × σ :=
  inputs.foldl (fun done input =>
    let next := step input.1 done.2 input.2
    (done.1 ++ [(.returned next.1, next.2.1)], next.2.2)) ([], s)

theorem replay_snoc (step : γ → σ → C → V × γ × σ) (s : σ) (inputs : List (γ × C)) (g : γ) (c : C) :
    replay step s (inputs ++ [(g, c)]) =
      ((replay step s inputs).1 ++ [(.returned (step g (replay step s inputs).2 c).1, (step g (replay step s inputs).2 c).2.1)],
        (step g (replay step s inputs).2 c).2.2) := by
  rw [replay, List.foldl_append]
  rfl

/-- A conversation whose calls meet a guard has the outputs of a function, and ends in a state that is related to the function's, if every
exchange that meets the guard has the function's output and keeps the relation. -/
theorem Conversation.refines {prog : C → Prog S V} {M : Machine S (γ × τ)} {F : γ → σ → C → V × γ × σ} {R : σ → τ → Prop} {G : C → Prop}
    {s : σ} {t₀ t : τ} {log : List (Exchange C V γ τ)} (hnil : R s t₀)
    (hsnoc : ∀ (x : Exchange C V γ τ) tr s, R s x.before → G x.call → Runs M (prog x.call) (x.shown, x.before) tr x.result (x.left, x.after) →
      x.output = (.returned (F x.shown s x.call).1, (F x.shown s x.call).2.1) ∧ R (F x.shown s x.call).2.2 x.after)
    (h : Conversation prog M t₀ log t) (hG : ∀ x ∈ log, G x.call) :
    log.map Exchange.output = (replay F s (log.map Exchange.input)).1 ∧ R (replay F s (log.map Exchange.input)).2 t := by
  induction h with
  | nil => exact ⟨rfl, hnil⟩
  | @snoc log x tr h hrun ih =>
    rw [List.forall_mem_append, List.forall_mem_singleton] at hG
    obtain ⟨houtputs, hR⟩ := ih hG.1
    obtain ⟨houtput, hafter⟩ := hsnoc x tr _ hR hG.2 hrun
    simp only [List.map_append, List.map_singleton, Exchange.input] at houtputs hR houtput hafter ⊢
    rw [replay_snoc, houtputs, houtput]
    exact ⟨rfl, hafter⟩

end

end Effects
