import WasmtimeMysql.Lib.Prog

/-!
# Programs that go through phases

What a program is known to do whatever it is answered, within what it may rely on: it goes through phases, and each phase allows some
commands only. The phase after a command depends on the answer. A phase may also just keep account of the run so far; then the phase
at the end says what the trace was like (`Prog.Obeys.of_runs`).
-/

namespace Effects

variable {S : Sig} {φ α β σ : Type}

/-- The commands each phase allows, the answers it relies on, and the phase after each answer. -/
structure Discipline (S : Sig) (φ : Type) where
  allows : φ → S.Cmd → Prop
  relies : (c : S.Cmd) → S.Resp c → Prop
  next : φ → (c : S.Cmd) → S.Resp c → φ

/-- The phase after a trace. -/
def Discipline.after (D : Discipline S φ) (f : φ) (tr : List (Event S)) : φ := tr.foldl (fun f ev => D.next f ev.1 ev.2) f

/-- The phase after one more event. -/
theorem Discipline.after_snoc (D : Discipline S φ) (f : φ) (tr : List (Event S)) (ev : Event S) :
    D.after f (tr ++ [ev]) = D.next (D.after f tr) ev.1 ev.2 := by
  unfold Discipline.after
  rw [List.foldl_append, List.foldl_cons, List.foldl_nil]

namespace Prog

variable {D : Discipline S φ}

/-- The program issues only what its phase allows, and ends with a value and in a phase that satisfy `Q`. -/
def Obeys (D : Discipline S φ) : Prog S α → (α → φ → Prop) → φ → Prop
  | ret a, Q, f => Q a f
  | panic, _, _ => True
  | call c k, Q, f => D.allows f c ∧ ∀ r, D.relies c r → (k r).Obeys D Q (D.next f c r)

/-- What obeys keeps to its promise and to every weaker one. -/
theorem Obeys.mono {p : Prog S α} {Q Q' : α → φ → Prop} {f : φ} (h : p.Obeys D Q f) (hQ : ∀ a f', Q a f' → Q' a f') :
    p.Obeys D Q' f := by
  induction p generalizing f with
  | ret a => exact hQ a f h
  | panic => trivial
  | call c k ih => exact ⟨h.1, fun r hr => ih r (h.2 r hr)⟩

/-- A command and what follows it. -/
theorem Obeys.step {c : S.Cmd} {k : S.Resp c → Prog S α} {Q : α → φ → Prop} {f : φ} (hc : D.allows f c)
    (hk : ∀ r, D.relies c r → (k r).Obeys D Q (D.next f c r)) : (cmd c >>= k).Obeys D Q f := ⟨hc, hk⟩

/-- A sequence obeys when its first part does and leaves a phase in which the second does. -/
theorem obeys_bind {p : Prog S α} {g : α → Prog S β} {Q : β → φ → Prop} {f : φ} :
    (p >>= g).Obeys D Q f ↔ p.Obeys D (fun a f' => (g a).Obeys D Q f') f := by
  induction p generalizing f with
  | ret a => rfl
  | panic => rfl
  | call c k ih => exact and_congr_right fun _ => forall_congr' fun r => imp_congr_right fun _ => ih r

/-- A result that is mapped. -/
theorem obeys_map {p : Prog S α} {g : α → β} {Q : β → φ → Prop} {f : φ} :
    (g <$> p).Obeys D Q f ↔ p.Obeys D (fun a f' => Q (g a) f') f := by
  rw [← bind_pure_comp, obeys_bind]
  rfl

/-- A run goes through the phases in step with the machine: what holds between phase and state, and each allowed command keeps, holds
at the end, however the run ends. -/
theorem Obeys.simulates {M : Machine S σ} {R : φ → σ → Prop}
    (hM : ∀ f s c r s', R f s → D.allows f c → M s c r s' → D.relies c r ∧ R (D.next f c r) s') {p : Prog S α} {s s' : σ}
    {tr : List (Event S)} {o : Outcome α} (hrun : Runs M p s tr o s') {Q : α → φ → Prop} {f : φ} (hp : p.Obeys D Q f) (hR : R f s) :
    R (D.after f tr) s' ∧ ∀ a, o = .returned a → Q a (D.after f tr) := by
  induction hrun generalizing f with
  | ret b s =>
    refine ⟨hR, ?_⟩
    intro a ho
    cases ho
    exact hp
  | panic s => exact ⟨hR, nofun⟩
  | call hm _ ih =>
    obtain ⟨hrelies, hnext⟩ := hM _ _ _ _ _ hR hp.1 hm
    exact ih (hp.2 _ hrelies) hnext

/-- A run over a machine that answers as relied on ends in a phase that satisfies `Q`. -/
theorem Obeys.of_runs {M : Machine S σ} (hM : ∀ s c r s', M s c r s' → D.relies c r) {p : Prog S α} {s s' : σ}
    {tr : List (Event S)} {o : Outcome α} (hrun : Runs M p s tr o s') {Q : α → φ → Prop} {f : φ} (hp : p.Obeys D Q f) {a : α}
    (ho : o = .returned a) : Q a (D.after f tr) := by
  have hstep (f : φ) (s : σ) (c : S.Cmd) (r : S.Resp c) (s' : σ) (_ : True) (_ : D.allows f c) (hm : M s c r s') :
      D.relies c r ∧ True := ⟨hM s c r s' hm, trivial⟩
  exact (hp.simulates hstep hrun trivial).2 a ho

/-- Every command of a run was allowed in some phase, over a machine that answers as relied on while its states satisfy `I`. -/
theorem Obeys.allows_of_mem {M : Machine S σ} {I : σ → Prop} (hM : ∀ s c r s', I s → M s c r s' → D.relies c r ∧ I s')
    {p : Prog S α} {s s' : σ} {tr : List (Event S)} {o : Outcome α} (hrun : Runs M p s tr o s') {Q : α → φ → Prop} {f : φ}
    (hp : p.Obeys D Q f) (hI : I s) : ∀ ev ∈ tr, ∃ f', D.allows f' ev.1 := by
  induction hrun generalizing f with
  | ret b s => exact nofun
  | panic s => exact nofun
  | call hm _ ih =>
    obtain ⟨hrelies, hnext⟩ := hM _ _ _ _ hI hm
    intro ev hev
    rcases List.mem_cons.mp hev with rfl | hev
    · exact ⟨f, hp.1⟩
    · exact ih (hp.2 _ hrelies) hnext ev hev

/-- The program obeys, and does not panic. -/
def Delivers (D : Discipline S φ) : Prog S α → (α → φ → Prop) → φ → Prop
  | ret a, Q, f => Q a f
  | panic, _, _ => False
  | call c k, Q, f => D.allows f c ∧ ∀ r, D.relies c r → (k r).Delivers D Q (D.next f c r)

/-- What delivers obeys. -/
theorem Delivers.obeys {p : Prog S α} {Q Q' : α → φ → Prop} {f : φ} (h : p.Delivers D Q f) (hQ : ∀ a f', Q a f' → Q' a f') :
    p.Obeys D Q' f := by
  induction p generalizing f with
  | ret a => exact hQ a f h
  | panic => trivial
  | call c k ih => exact ⟨h.1, fun r hr => ih r (h.2 r hr)⟩

/-- What delivers keeps to its promise and to every weaker one. -/
theorem Delivers.mono {p : Prog S α} {Q Q' : α → φ → Prop} {f : φ} (h : p.Delivers D Q f) (hQ : ∀ a f', Q a f' → Q' a f') :
    p.Delivers D Q' f := by
  induction p generalizing f with
  | ret a => exact hQ a f h
  | panic => exact h
  | call c k ih => exact ⟨h.1, fun r hr => ih r (h.2 r hr)⟩

/-- A program delivers part by part. -/
theorem delivers_bind {p : Prog S α} {g : α → Prog S β} {Q : β → φ → Prop} {f : φ} :
    (p >>= g).Delivers D Q f ↔ p.Delivers D (fun a f' => (g a).Delivers D Q f') f := by
  induction p generalizing f with
  | ret a => rfl
  | panic => rfl
  | call c k ih => exact and_congr_right fun _ => forall_congr' fun r => imp_congr_right fun _ => ih r

/-- A result that is mapped. -/
theorem delivers_map {p : Prog S α} {g : α → β} {Q : β → φ → Prop} {f : φ} :
    (g <$> p).Delivers D Q f ↔ p.Delivers D (fun a f' => Q (g a) f') f := by
  rw [← bind_pure_comp, delivers_bind]
  rfl

/-- The program obeys, and panics only in a phase that satisfies `R`. -/
def Settles (D : Discipline S φ) (R : φ → Prop) : Prog S α → (α → φ → Prop) → φ → Prop
  | ret a, Q, f => Q a f
  | panic, _, f => R f
  | call c k, Q, f => D.allows f c ∧ ∀ r, D.relies c r → (k r).Settles D R Q (D.next f c r)

/-- A program settles part by part. -/
theorem settles_bind {R : φ → Prop} {p : Prog S α} {g : α → Prog S β} {Q : β → φ → Prop} {f : φ} :
    (p >>= g).Settles D R Q f ↔ p.Settles D R (fun a f' => (g a).Settles D R Q f') f := by
  induction p generalizing f with
  | ret a => rfl
  | panic => rfl
  | call c k ih => exact and_congr_right fun _ => forall_congr' fun r => imp_congr_right fun _ => ih r

/-- A program settles when each command it can issue is allowed in the phases of a set, and leads to one of them. -/
theorem Only.settles {R : φ → Prop} {P : S.Cmd → Prop} {I : φ → Prop} {p : Prog S α} (h : p.Only P)
    (hP : ∀ f c, I f → P c → D.allows f c ∧ ∀ r, I (D.next f c r)) (hR : ∀ f, I f → R f) {Q : α → φ → Prop}
    (hQ : ∀ a f, I f → Q a f) {f : φ} (hf : I f) : p.Settles D R Q f := by
  induction p generalizing f with
  | ret a => exact hQ a f hf
  | panic => exact hR f hf
  | call c k ih =>
    obtain ⟨hallows, hnext⟩ := hP f c hf h.1
    exact ⟨hallows, fun r _ => ih r (h.2 r) (hnext r)⟩

end Prog

/-- Every command a program can issue is a command. -/
theorem Prog.only_true (p : Prog S α) : p.Only fun _ => True := by
  induction p with
  | ret a => trivial
  | panic => trivial
  | call c k ih => exact ⟨trivial, ih⟩

/-- A program obeys when each command it can issue is allowed in every phase. -/
theorem Prog.Only.obeys {D : Discipline S φ} {P : S.Cmd → Prop} {p : Prog S α} (h : p.Only P) (hP : ∀ f c, P c → D.allows f c) (f : φ) :
    p.Obeys D (fun _ _ => True) f := by
  induction p generalizing f with
  | ret a => trivial
  | panic => trivial
  | call c k ih => exact ⟨hP f c h.1, fun r _ => ih r (h.2 r) _⟩

/-- A program obeys, and stays in its phase, when each command it can issue is allowed and keeps the phase. -/
theorem Prog.Only.obeys_same {D : Discipline S φ} {P : S.Cmd → Prop} {p : Prog S α} (h : p.Only P) {f : φ}
    (hP : ∀ c, P c → D.allows f c ∧ ∀ r, D.next f c r = f) {Q : α → φ → Prop} (hQ : ∀ a, Q a f) : p.Obeys D Q f := by
  induction p with
  | ret a => exact hQ a
  | panic => trivial
  | call c k ih =>
    obtain ⟨hallows, hnext⟩ := hP c h.1
    refine ⟨hallows, fun r _ => ?_⟩
    rw [hnext r]
    exact ih r (h.2 r)

/-- A program that obeys one discipline obeys another that allows at least as much, in the phases that correspond. -/
theorem Prog.Obeys.image {ψ : Type} {D : Discipline S φ} {D' : Discipline S ψ} (g : φ → ψ)
    (hrelies : ∀ c r, D'.relies c r → D.relies c r) (hallows : ∀ f c, D.allows f c → D'.allows (g f) c)
    (hnext : ∀ f c r, D.allows f c → D'.next (g f) c r = g (D.next f c r)) {p : Prog S α} {Q : α → ψ → Prop} {f : φ}
    (h : p.Obeys D (fun a f' => Q a (g f')) f) : p.Obeys D' Q (g f) := by
  induction p generalizing f with
  | ret a => exact h
  | panic => trivial
  | call c k ih =>
    refine ⟨hallows f c h.1, fun r hr => ?_⟩
    rw [hnext f c r h.1]
    exact ih r (h.2 r (hrelies c r hr))

/-- The discipline that allows everything and stays in its phase. -/
def Discipline.free (S : Sig) (φ : Type) : Discipline S φ where
  allows _ _ := True
  relies _ _ := True
  next f _ _ := f

/-- Everything obeys the discipline that forbids nothing. -/
theorem Prog.obeys_free {p : Prog S α} {Q : α → φ → Prop} {f : φ} (h : ∀ a, Q a f) : p.Obeys (.free S φ) Q f := by
  induction p with
  | ret a => exact h a
  | panic => trivial
  | call c k ih => exact ⟨trivial, fun r _ => ih r⟩

/-! ## Over a larger signature -/

section
variable {T : Sig}

/-- The discipline that allows only commands of the first signature, as the given one does. -/
def Discipline.inl (D : Discipline S φ) : Discipline (S.sum T) φ where
  allows f
    | .inl c => D.allows f c
    | .inr _ => False
  relies
    | .inl c, r => D.relies c r
    | .inr _, _ => True
  next f
    | .inl c, r => D.next f c r
    | .inr _, _ => f

/-- The discipline that allows only commands of the second signature, as the given one does. -/
def Discipline.inr (D : Discipline T φ) : Discipline (S.sum T) φ where
  allows f
    | .inl _ => False
    | .inr c => D.allows f c
  relies
    | .inl _, _ => True
    | .inr c, r => D.relies c r
  next f
    | .inl _, _ => f
    | .inr c, r => D.next f c r

namespace Prog

/-- A program on the left obeys there, ... -/
theorem Obeys.inl {D : Discipline S φ} {p : Prog S α} {Q : α → φ → Prop} {f : φ} (h : p.Obeys D Q f) :
    (Prog.inl (T := T) p).Obeys D.inl Q f := by
  induction p generalizing f with
  | ret a => exact h
  | panic => trivial
  | call c k ih => exact ⟨h.1, fun r hr => ih r (h.2 r hr)⟩

/-- ... and one on the right does. -/
theorem Obeys.inr {D : Discipline T φ} {p : Prog T α} {Q : α → φ → Prop} {f : φ} (h : p.Obeys D Q f) :
    (Prog.inr (S := S) p).Obeys D.inr Q f := by
  induction p generalizing f with
  | ret a => exact h
  | panic => trivial
  | call c k ih => exact ⟨h.1, fun r hr => ih r (h.2 r hr)⟩

/-- The same for what delivers on the left ... -/
theorem Delivers.inl {D : Discipline S φ} {p : Prog S α} {Q : α → φ → Prop} {f : φ} (h : p.Delivers D Q f) :
    (Prog.inl (T := T) p).Delivers D.inl Q f := by
  induction p generalizing f with
  | ret a => exact h
  | panic => exact h
  | call c k ih => exact ⟨h.1, fun r hr => ih r (h.2 r hr)⟩

/-- ... and on the right. -/
theorem Delivers.inr {D : Discipline T φ} {p : Prog T α} {Q : α → φ → Prop} {f : φ} (h : p.Delivers D Q f) :
    (Prog.inr (S := S) p).Delivers D.inr Q f := by
  induction p generalizing f with
  | ret a => exact h
  | panic => exact h
  | call c k ih => exact ⟨h.1, fun r hr => ih r (h.2 r hr)⟩

end Prog

end

/-! ## The trace as the phase -/

/-- The discipline that allows everything and remembers the trace. -/
def Discipline.history (relies : (c : S.Cmd) → S.Resp c → Prop) : Discipline S (List (Event S)) where
  allows _ _ := True
  relies
  next tr c r := tr ++ [⟨c, r⟩]

/-- After some events the history has them, too. -/
theorem Discipline.after_history (relies : (c : S.Cmd) → S.Resp c → Prop) (tr tr' : List (Event S)) :
    (Discipline.history relies).after tr tr' = tr ++ tr' := by
  induction tr' generalizing tr with
  | nil => exact (List.append_nil tr).symm
  | cons ev tr' ih =>
    have hcons : (Discipline.history relies).after tr (ev :: tr') = (Discipline.history relies).after (tr ++ [ev]) tr' := rfl
    rw [hcons, ih, List.append_assoc]
    rfl

end Effects
