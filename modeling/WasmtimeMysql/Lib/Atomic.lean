import WasmtimeMysql.Lib.Pool

/-!
# Calls that seem to happen at once

The threads of a pool run calls of several steps over a shared state. An atomic object does each call in one step, somewhere between its start
and its end; `Atomic.Run` are its runs, with the history of starts and ends that its clients see. `Pool.Run.linearizes` is the rule by which a
pool has only histories that the object has: each job is not done yet, or has been done with a result that it is going to return.
-/

namespace Effects

variable {S : Sig} {ι C V σ τ : Type}

/-! ## Histories -/

/-- What the clients of an object see. -/
inductive Seen (ι C V : Type) where
  | start (who : ι) (call : C)
  | finish (who : ι) (value : V)
  deriving DecidableEq

/-- What a move of a pool shows of itself: commands do not show, and neither do calls that panic. -/
def Move.seen (m : Move S ι C V σ) : Option (Seen ι C V) :=
  match m.action with
  | .start call => some (.start m.who call)
  | .issue .. => none
  | .finish =>
    match m.before.job m.who with
    | some ⟨_, _, .ret v⟩ => some (.finish m.who v)
    | _ => none

/-- The history of a run. -/
def history (log : List (Move S ι C V σ)) : List (Seen ι C V) := log.filterMap Move.seen

theorem history_snoc (log : List (Move S ι C V σ)) (m : Move S ι C V σ) : history (log ++ [m]) = history log ++ m.seen.toList := by
  unfold history
  rw [List.filterMap_append]
  cases h : m.seen <;> simp [h]

/-! ## Atomic objects -/

section
variable [DecidableEq ι]

/-- The runs of an atomic object: a call that was started is done at once, and then it ends with its result. -/
inductive Atomic.Run (T : τ → C → V → τ → Prop) (t : τ) : List (Seen ι C V) → (ι → Option (C × Option V)) → τ → Prop where
  | nil : Run T t [] (fun _ => none) t
  | start {seen : List (Seen ι C V)} {calls : ι → Option (C × Option V)} {t' : τ} (i : ι) (call : C) : Run T t seen calls t' → calls i = none →
      Run T t (seen ++ [.start i call]) (Function.update calls i (some (call, none))) t'
  | act {seen : List (Seen ι C V)} {calls : ι → Option (C × Option V)} {t' t'' : τ} {i : ι} {call : C} {v : V} : Run T t seen calls t' →
      calls i = some (call, none) → T t' call v t'' → Run T t seen (Function.update calls i (some (call, some v))) t''
  | finish {seen : List (Seen ι C V)} {calls : ι → Option (C × Option V)} {t' : τ} {i : ι} {call : C} {v : V} : Run T t seen calls t' →
      calls i = some (call, some v) → Run T t (seen ++ [.finish i v]) (Function.update calls i none) t'

/-! ## The rule -/

/-- What is left of a thread's call that is not done, in a state of the pool and one of the object. -/
abbrev Rest (S : Sig) (ι C σ τ : Type) (V : Type) : Type := σ → τ → ι → C → Prog S V → Prop

/-- What is left of a call that is done, with the result that it is going to return. -/
abbrev DoneRest (S : Sig) (ι C V σ τ : Type) : Type := σ → τ → ι → C → V → Prog S V → Prop

/-- A job of the pool beside a call of the object. What is left of a call that is not done is in `J`, and of one that is done in `D`. -/
inductive Matched (J : Rest S ι C σ τ V) (D : DoneRest S ι C V σ τ) (s : σ) (t : τ) (i : ι) :
    Option (Job S C V σ) → Option (C × Option V) → Prop where
  | idle : Matched J D s t i none none
  | pending {call : C} {past : List (Issued S σ)} {rest : Prog S V} : J s t i call rest →
      Matched J D s t i (some ⟨call, past, rest⟩) (some (call, none))
  | done {call : C} {past : List (Issued S σ)} {rest : Prog S V} {v : V} : D s t i call v rest →
      Matched J D s t i (some ⟨call, past, rest⟩) (some (call, some v))

/-- What is left of some call of a thread. -/
def Active (J : Rest S ι C σ τ V) (D : DoneRest S ι C V σ τ) (s : σ) (t : τ) (i : ι) (p : Prog S V) : Prop :=
  (∃ c, J s t i c p) ∨ ∃ c v, D s t i c v p

/-- How a pool is simulated by an atomic object. A command of a call that is not done leaves the object alone or is the moment at which the call
is done. What is left of the calls of other threads stays as good as it was. -/
structure Simulates (prog : C → Prog S V) (M : Machine S σ) (T : τ → C → V → τ → Prop) (G : ι → C → Prop) (R : σ → τ → Prop)
    (J : Rest S ι C σ τ V) (D : DoneRest S ι C V σ τ) : Prop where
  start : ∀ {s t i c}, G i c → J s t i c (prog c)
  issue : ∀ {s t s' i c a k r}, R s t → J s t i c (.call a k) → M s a r s' →
    (R s' t ∧ J s' t i c (k r)) ∨ ∃ v t', T t c v t' ∧ R s' t' ∧ D s' t' i c v (k r)
  rest : ∀ {s t s' i c v a k r}, R s t → D s t i c v (.call a k) → M s a r s' → R s' t ∧ D s' t i c v (k r)
  last : ∀ {s t i c v}, R s t → J s t i c (.ret v) → ∃ t', T t c v t' ∧ R s t'
  value : ∀ {s t i c v v'}, D s t i c v (.ret v') → v' = v
  safe : ∀ {s t i}, ¬Active J D s t i .panic
  othersJ : ∀ {s t s' i x a k r c p}, x ≠ i → Active J D s t i (.call a k) → M s a r s' → J s t x c p → J s' t x c p
  othersD : ∀ {s t s' i x a k r c v p}, x ≠ i → Active J D s t i (.call a k) → M s a r s' → D s t x c v p → D s' t x c v p
  keepJ : ∀ {s t t' i c c' v' p}, J s t i c p → T t c' v' t' → J s t' i c p
  keepD : ∀ {s t t' i c v c' v' p}, D s t i c v p → T t c' v' t' → D s t' i c v p

namespace Simulates

variable {prog : C → Prog S V} {M : Machine S σ} {T : τ → C → V → τ → Prop} {G : ι → C → Prop} {R : σ → τ → Prop} {J : Rest S ι C σ τ V}
  {D : DoneRest S ι C V σ τ}

omit [DecidableEq ι] in
/-- The calls of the object stay matched when it does one of them. -/
theorem keep (h : Simulates prog M T G R J D) {s : σ} {t t' : τ} {call : C} {v : V} (ht : T t call v t') {x : ι} {job : Option (Job S C V σ)}
    {c : Option (C × Option V)} (hm : Matched J D s t x job c) : Matched J D s t' x job c := by
  cases hm with
  | idle => exact .idle
  | pending hj => exact .pending (h.keepJ hj ht)
  | done hd => exact .done (h.keepD hd ht)

omit [DecidableEq ι] in
/-- They stay matched when another thread issues a command. -/
theorem undisturbed (h : Simulates prog M T G R J D) {s s' : σ} {t : τ} {i x : ι} (hx : x ≠ i) {a : S.Cmd} {k : S.Resp a → Prog S V}
    {r : S.Resp a} (hi : Active J D s t i (.call a k)) (hM : M s a r s') {job : Option (Job S C V σ)} {c : Option (C × Option V)}
    (hm : Matched J D s t x job c) : Matched J D s' t x job c := by
  cases hm with
  | idle => exact .idle
  | pending hj => exact .pending (h.othersJ hx hi hM hj)
  | done hd => exact .done (h.othersD hx hi hM hd)

/-- Threads other than the one that moved are matched as before. -/
theorem others {s : σ} {t : τ} {P : Pool S ι C V σ} {calls : ι → Option (C × Option V)} {i : ι} {job : Option (Job S C V σ)}
    {c : Option (C × Option V)} (hm : ∀ x, x ≠ i → Matched J D s t x (P.job x) (calls x)) (hi : Matched J D s t i job c) (x : ι) :
    Matched J D s t x ((P.setJob i job).job x) (Function.update calls i c x) := by
  by_cases hx : x = i
  · subst hx
    simpa using hi
  · rw [Pool.setJob_of_ne hx, Function.update_of_ne hx]
    exact hm x hx

/-- So they are when the object's call has not changed. -/
theorem others_same {s : σ} {t : τ} {P : Pool S ι C V σ} {calls : ι → Option (C × Option V)} {i : ι} {job : Option (Job S C V σ)}
    {c : Option (C × Option V)} (hm : ∀ x, x ≠ i → Matched J D s t x (P.job x) (calls x)) (hc : calls i = c)
    (hi : Matched J D s t i job c) (x : ι) : Matched J D s t x ((P.setJob i job).job x) (calls x) := by
  have hx := others (i := i) hm hi x
  rwa [← hc, Function.update_eq_self] at hx

/-- The object follows the pool. -/
def Follows (R : σ → τ → Prop) (J : Rest S ι C σ τ V) (D : DoneRest S ι C V σ τ) (T : τ → C → V → τ → Prop) (t : τ)
    (seen : List (Seen ι C V)) (P : Pool S ι C V σ) : Prop :=
  ∃ calls t', Atomic.Run T t seen calls t' ∧ R P.state t' ∧ ∀ i, Matched J D P.state t' i (P.job i) (calls i)

/-- One move of the pool. -/
theorem move (h : Simulates prog M T G R J D) {t : τ} {seen : List (Seen ι C V)} {m : Move S ι C V σ} (hf : Follows R J D T t seen m.before)
    (hG : ∀ call, m.action = .start call → G m.who call) (hstep : Pool.Step prog M m.before m.who m.action m.after) :
    Follows R J D T t (seen ++ m.seen.toList) m.after := by
  obtain ⟨calls, t', hrun, hR, hm⟩ := hf
  obtain ⟨P, i, action, P'⟩ := m
  simp only at hstep hG hR hm
  have hi := hm i
  cases hstep with
  | start call hidle =>
    rw [hidle] at hi
    cases hc : calls i with
    | some c => rw [hc] at hi; cases hi
    | none => exact ⟨_, t', .start i call hrun hc, hR, others (fun x _ => hm x) (.pending (h.start (hG call rfl)))⟩
  | issue hjob hM =>
    rw [hjob] at hi
    simp only [Move.seen, Option.toList_none, List.append_nil]
    generalize hc : calls i = c at hi
    cases hi with
    | pending hj =>
      have hothers := fun x hx => h.undisturbed hx (.inl ⟨_, hj⟩) hM (hm x)
      rcases h.issue hR hj hM with ⟨hR', hj'⟩ | ⟨v, t'', hT, hR', hd⟩
      · exact ⟨calls, t', hrun, hR', others_same hothers hc (.pending hj')⟩
      · exact ⟨_, t'', .act hrun hc hT, hR', others (fun x hx => h.keep hT (hothers x hx)) (.done hd)⟩
    | done hd =>
      obtain ⟨hR', hd'⟩ := h.rest hR hd hM
      exact ⟨calls, t', hrun, hR', others_same (fun x hx => h.undisturbed hx (.inr ⟨_, _, hd⟩) hM (hm x)) hc (.done hd')⟩
  | @finish _ _ v hjob =>
    have hseen : (⟨P, i, .finish, P.setJob i none⟩ : Move S ι C V σ).seen = some (.finish i v) := by
      simp only [Move.seen, hjob]
    rw [hseen]
    rw [hjob] at hi
    generalize hc : calls i = c at hi
    cases hi with
    | pending hj =>
      -- the call is done at its end
      obtain ⟨t'', hT, hR'⟩ := h.last hR hj
      have hrun' := Atomic.Run.finish (.act hrun hc hT) (Function.update_self ..)
      rw [Function.update_idem] at hrun'
      exact ⟨_, t'', hrun', hR', others (fun x _ => h.keep hT (hm x)) .idle⟩
    | done hd =>
      cases h.value hd
      exact ⟨_, t', .finish hrun hc, hR, others (fun x _ => hm x) .idle⟩
  | abort hjob =>
    rw [hjob] at hi
    generalize calls i = c at hi
    cases hi with
    | pending hj => exact absurd (.inl ⟨_, hj⟩) h.safe
    | done hd => exact absurd (.inr ⟨_, _, hd⟩) h.safe

/-- Every history of the pool is one of the object, and the states stay related. -/
theorem linearizes (h : Simulates prog M T G R J D) {s : σ} {t : τ} (hR : R s t) {log : List (Move S ι C V σ)} {P : Pool S ι C V σ}
    (hrun : Pool.Run prog M s log P) (hG : ∀ m ∈ log, ∀ call, m.action = .start call → G m.who call) :
    ∃ calls t', Atomic.Run T t (history log) calls t' ∧ R P.state t' := by
  have hfollows : Follows R J D T t (history log) P := by
    induction hrun with
    | nil => exact ⟨fun _ => none, t, .nil, hR, fun _ => .idle⟩
    | @snoc log m _ hstep ih =>
      rw [history_snoc]
      refine h.move (ih fun m' hm' => hG m' (List.mem_append_left _ hm')) ?_ hstep
      exact hG m (List.mem_append_right _ List.mem_cons_self)
  obtain ⟨calls, t', hatomic, hR', -⟩ := hfollows
  exact ⟨calls, t', hatomic, hR'⟩

end Simulates

end

end Effects
