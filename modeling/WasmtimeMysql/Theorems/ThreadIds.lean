import WasmtimeMysql.Lib.Session
import WasmtimeMysql.Runner

/-!
# Thread ids

`spawn_wasi_thread` takes the next id from a counter of 32 bits with `fetch_add` and rejects the ids that are not positive. The ids of
the wasi-threads ABI end at `0x1FFFFFFF`; as long as the counter has not passed it, every thread that is started has an id of its own in
that range (`thread_ids`), whichever threads call and in whatever order their steps come. The counter does pass it, since every call
advances it, also one that fails (`thread_ids_past_abi`).
-/

namespace WasmtimeMysql

open Effects

/-- The last thread id of the wasi-threads ABI. -/
def maxThreadId : Int := 0x1FFFFFFF

section
variable {B : Build} {ι : Type}

/-- The call has started a thread. -/
def Started (task : Task B.Runner GuestCall Int64) : Prop :=
  ∃ threadId startArg, ⟨.inr (.inr (.spawn threadId startArg)), true⟩ ∈ task.past

/-- The move is the end of a `thread-spawn` call. -/
def EndsSpawn (m : GuestMove B ι) (task : Task B.Runner GuestCall Int64) (v : Int64) : Prop :=
  m.deed = .finish task (.returned v) ∧ ∃ startArg, task.call = .threadSpawn startArg

/-- The ids of a run: a `thread-spawn` call that has started a thread returns an id of the ABI's range that no call returned before, and one
that has not returns `-EAGAIN`. -/
def IdsWell (log : List (GuestMove B ι)) : Prop :=
  ∀ pre m post, log = pre ++ m :: post → ∀ task v, EndsSpawn m task v →
    (Started task → 0 < v.toInt ∧ v.toInt ≤ maxThreadId ∧
      ∀ m' ∈ pre, ∀ task' v', EndsSpawn m' task' v' → Started task' → v' ≠ v) ∧
    (¬Started task → v = (negErrno .eagain).toInt64)

/-- A `fetch_add` that finds the counter in the ABI's range. -/
def CounterInRange (m : GuestMove B ι) : Prop :=
  ∀ task r, m.deed = .issue task (.inr (.inr .fetchAdd)) r → m.before.shared.nextThreadId.toInt ≤ maxThreadId

end

namespace ThreadIdsAux

/-! ### One call -/

/-- How far a `thread-spawn` call is. -/
inductive Phase where
  | fresh
  | drew (threadId : Int32)
  | started (threadId : Int32)
  | refused
  deriving DecidableEq

/-- The id the call has drawn and not given up. -/
def Phase.held : Phase → Option Int32
  | .drew threadId => some threadId
  | .started threadId => some threadId
  | _ => none

/-- The phases of `spawn_wasi_thread`. -/
def spawning : Discipline Runtime Phase where
  allows f
    | .fetchAdd => f = .fresh
    | .spawn threadId _ => f = .drew threadId
  relies _ _ := True
  next
    | .started threadId, _, _ => .started threadId
    | _, .fetchAdd, threadId => .drew threadId
    | _, .spawn threadId _, true => .started threadId
    | _, .spawn .., false => .refused

/-- What the call returns in each phase. -/
def Returns (v : Int64) : Phase → Prop
  | .fresh => False
  | .drew _ => v = (negErrno .eagain).toInt64
  | .started threadId => v = threadId.toInt64
  | .refused => v = (negErrno .eagain).toInt64

/-- `spawn_wasi_thread` keeps to its phases. -/
theorem obeys_spawnWasiThread (startArg : Int32) :
    (Int32.toInt64 <$> spawnWasiThread startArg).Obeys spawning Returns .fresh := by
  refine Prog.obeys_map.mpr (Prog.obeys_bind.mpr ⟨rfl, ?_⟩)
  intro threadId _
  by_cases hpos : threadId ≤ 0
  · simp only [Prog.Obeys, if_pos hpos]
    rfl
  · simp only [Prog.Obeys, if_neg hpos]
    refine Prog.obeys_bind.mpr ⟨rfl, ?_⟩
    intro spawned _
    cases spawned <;> rfl

section
variable {B : Build} {ι : Type}

/-- The discipline of each call: only `thread-spawn` is of interest. -/
def discipline (B : Build) : GuestCall → Discipline B.Runner Phase
  | .socket _ => (Discipline.free B.Sockets Phase).inl
  | .file _ => (Discipline.free B.Files Phase).inl.inr
  | .threadSpawn _ => spawning.inr.inr

/-- What each call returns. -/
def Ends : GuestCall → Int64 → Phase → Prop
  | .threadSpawn _, v, f => Returns v f
  | _, _, f => f = .fresh

/-- Every call keeps to the phases it has. -/
theorem obeys_guestProg (call : GuestCall) : (guestProg B call).Obeys (discipline B call) (Ends call) .fresh := by
  cases call with
  | socket c =>
    have hfree : (Int32.toInt64 <$> B.socketProg c).Obeys (.free B.Sockets Phase) (fun _ f => f = .fresh) .fresh :=
      Prog.obeys_free fun _ => rfl
    exact hfree.inl
  | file c =>
    have hfree : (B.fileProg c).Obeys (.free B.Files Phase) (fun _ f => f = .fresh) .fresh := Prog.obeys_free fun _ => rfl
    exact hfree.inl.inr
  | threadSpawn startArg => exact (obeys_spawnWasiThread startArg).inr.inr

/-- The phase of a call. -/
def phase (task : Task B.Runner GuestCall Int64) : Phase := (discipline B task.call).after .fresh task.past

/-- Every call of every thread is in its phase. -/
def InPhase (P : Guest B ι) : Prop :=
  Crew.Holds (fun _ => True) (fun _ => True) (Task.Obeys (discipline B) (fun _ => .fresh) Ends) P

/-- A step leaves every call in a phase. -/
theorem inPhase_step [DecidableEq ι] {m : GuestMove B ι} (h : InPhase m.before)
    (hstep : Crew.Step (guestRules B) m.before m.who m.deed m.after) : InPhase m.after := by
  refine Crew.Holds.step (g := fun _ _ => True) obeys_guestProg ?_ (fun _ _ _ _ _ _ => trivial) h (fun _ _ _ _ => trivial) hstep
  intro l s s' call past c k r _ _ hobeys _ _
  refine ⟨hobeys.issue.2 r ?_, trivial⟩
  cases call with
  | socket c' => rcases c with c | c <;> trivial
  | file c' => rcases c with c | c | c <;> trivial
  | threadSpawn startArg => rcases c with c | c | c <;> trivial

/-! ### One step -/

/-- The id a thread has drawn and not given up. -/
def heldBy (P : Guest B ι) (i : ι) : Option Int32 :=
  match P.member i with
  | some ⟨_, some task⟩ => (phase task).held
  | _ => none

/-- The id that a call holds, ... -/
theorem heldBy_of_task {P : Guest B ι} {i : ι} {own : ThreadStore} {task : Task B.Runner GuestCall Int64}
    (h : P.member i = some ⟨own, some task⟩) : heldBy P i = (phase task).held := by
  unfold heldBy
  rw [h]

/-- ... that a thread without a call ... -/
theorem heldBy_of_idle {P : Guest B ι} {i : ι} {own : ThreadStore} (h : P.member i = some ⟨own, none⟩) : heldBy P i = none := by
  unfold heldBy
  rw [h]

/-- ... or one that has not started does not hold, ... -/
theorem heldBy_of_not_started {P : Guest B ι} {i : ι} (h : P.member i = none) : heldBy P i = none := by
  unfold heldBy
  rw [h]

/-- ... and that a thread holds as long as it stays as it is. -/
theorem heldBy_congr {P P' : Guest B ι} {i : ι} (h : P'.member i = P.member i) : heldBy P' i = heldBy P i := by
  unfold heldBy
  rw [h]

/-- The phase after one more answer. -/
theorem phase_snoc (call : GuestCall) (past : List (Event B.Runner)) (rest rest' : Prog B.Runner Int64) (ev : Event B.Runner) :
    phase ⟨call, past ++ [ev], rest'⟩ = (discipline B call).next (phase ⟨call, past, rest⟩) ev.1 ev.2 :=
  Discipline.after_snoc _ _ _ _

/-- Only `fetch_add` moves the counter. -/
theorem nextThreadId_of_step {own : ThreadStore} {s s' : RuntimeEnv B} {c : B.Runner.Cmd} {r : B.Runner.Resp c}
    (h : threadMachine B own s c r s') : c = .inr (.inr .fetchAdd) ∨ s'.nextThreadId = s.nextThreadId := by
  rcases c with (c | c | c) | (c | c | c | c) | (_ | _)
  · exact .inr (congrArg RuntimeEnv.nextThreadId h)
  · exact .inr (by rw [h.2])
  · exact .inr (congrArg RuntimeEnv.nextThreadId h)
  · exact .inr (congrArg RuntimeEnv.nextThreadId h)
  · exact .inr (by rw [h.2])
  · exact .inr (congrArg RuntimeEnv.nextThreadId h)
  · obtain ⟨t, -, hs'⟩ := h
    exact .inr (by rw [hs'])
  · exact .inl rfl
  · exact .inr (congrArg RuntimeEnv.nextThreadId h)

/-- What an answer does to the id that its call holds: `fetch_add` gives it one, when it has none; anything else leaves it or takes it
away. -/
theorem held_snoc {call : GuestCall} {past : List (Event B.Runner)} {c : B.Runner.Cmd} {k : B.Runner.Resp c → Prog B.Runner Int64}
    (r : B.Runner.Resp c) (hallows : (discipline B call).allows (phase ⟨call, past, .call c k⟩) c) :
    (∃ threadId : Int32, (⟨c, r⟩ : Event B.Runner) = ⟨.inr (.inr .fetchAdd), threadId⟩ ∧
      (phase ⟨call, past, .call c k⟩).held = none ∧ (phase ⟨call, past ++ [⟨c, r⟩], k r⟩).held = some threadId) ∨
    (c ≠ .inr (.inr .fetchAdd) ∧ ((phase ⟨call, past ++ [⟨c, r⟩], k r⟩).held = (phase ⟨call, past, .call c k⟩).held ∨
      (phase ⟨call, past ++ [⟨c, r⟩], k r⟩).held = none)) := by
  rw [phase_snoc call past (.call c k) (k r)]
  cases call with
  | socket c' =>
    rcases c with c | c
    · exact .inr ⟨nofun, .inl rfl⟩
    · exact hallows.elim
  | file c' =>
    rcases c with c | c | c
    · exact hallows.elim
    · exact .inr ⟨nofun, .inl rfl⟩
    · exact hallows.elim
  | threadSpawn startArg =>
    rcases c with c | c | c
    · exact hallows.elim
    · exact hallows.elim
    · cases c with
      | fetchAdd =>
        have hfresh : phase ⟨.threadSpawn startArg, past, .call (.inr (.inr .fetchAdd)) k⟩ = .fresh := hallows
        rw [hfresh]
        exact .inl ⟨r, rfl, rfl, rfl⟩
      | spawn threadId arg =>
        refine .inr ⟨nofun, ?_⟩
        have hdrew : phase ⟨.threadSpawn startArg, past, .call (.inr (.inr (.spawn threadId arg))) k⟩ = .drew threadId := hallows
        rw [hdrew]
        change Bool at r
        cases r with
        | true => exact .inl rfl
        | false => exact .inr rfl

variable [DecidableEq ι]

/-- A step of one thread leaves what the others hold. Its own thread draws the counter's value with `fetch_add`, and otherwise keeps what it
holds or gives it up. -/
theorem step_held {m : GuestMove B ι} (h : InPhase m.before) (hstep : Crew.Step (guestRules B) m.before m.who m.deed m.after) :
    (∀ j, j ≠ m.who → heldBy m.after j = heldBy m.before j) ∧
    (((∃ task r, m.deed = .issue task (.inr (.inr .fetchAdd)) r) ∧ heldBy m.before m.who = none ∧
        heldBy m.after m.who = some m.before.shared.nextThreadId ∧
        m.after.shared.nextThreadId = m.before.shared.nextThreadId + 1) ∨
      (m.after.shared.nextThreadId = m.before.shared.nextThreadId ∧
        (heldBy m.after m.who = heldBy m.before m.who ∨ heldBy m.after m.who = none))) := by
  obtain ⟨P, i, deed, P'⟩ := m
  simp only at hstep ⊢
  have hissue {own : ThreadStore} {call : GuestCall} {past : List (Event B.Runner)} {c : B.Runner.Cmd}
      {k : B.Runner.Resp c → Prog B.Runner Int64} {r : B.Runner.Resp c} {s' : RuntimeEnv B} {P' : Guest B ι}
      (hi : P.member i = some ⟨own, some ⟨call, past, .call c k⟩⟩) (hm : threadMachine B own P.shared c r s')
      (hi' : P'.member i = some ⟨own, some ⟨call, past ++ [⟨c, r⟩], k r⟩⟩) (hs' : P'.shared = s') :
      ((∃ task r', Crew.Deed.issue (⟨call, past, .call c k⟩ : Task B.Runner GuestCall Int64) c r =
          .issue task (.inr (.inr .fetchAdd)) r') ∧ heldBy P i = none ∧ heldBy P' i = some P.shared.nextThreadId ∧
          P'.shared.nextThreadId = P.shared.nextThreadId + 1) ∨
        (P'.shared.nextThreadId = P.shared.nextThreadId ∧ (heldBy P' i = heldBy P i ∨ heldBy P' i = none)) := by
    rw [heldBy_of_task hi, heldBy_of_task hi', hs']
    rcases held_snoc r (h.of_member hi).2.issue.1 with ⟨threadId, heq, hnone, hsome⟩ | ⟨hne, hheld⟩
    · cases heq
      obtain ⟨hr, hnext⟩ := hm
      exact .inl ⟨⟨_, _, rfl⟩, hnone, hsome.trans (congrArg some hr), by rw [hnext]⟩
    · exact .inr ⟨(nextThreadId_of_step hm).resolve_left hne, hheld⟩
  cases hstep with
  | start call hi =>
    refine ⟨fun j hj => heldBy_congr (Crew.put_of_ne hj), .inr ⟨rfl, .inr ?_⟩⟩
    rw [heldBy_of_task (Crew.put_self _ _ _)]
    rfl
  | issue hi hm hnone =>
    refine ⟨fun j hj => heldBy_congr (Crew.put_of_ne hj), hissue hi hm (Crew.put_self _ _ _) rfl⟩
  | @spawn own own' call past c k r s' i' hi hm hsome hi' =>
    refine ⟨?_, hissue hi hm (Crew.put_self _ _ _) rfl⟩
    intro j hj
    by_cases hji' : j = i'
    · subst hji'
      have hnew : ((P.put j ⟨own', none⟩).put i ⟨own, some ⟨call, past ++ [⟨c, r⟩], k r⟩⟩).member j = some ⟨own', none⟩ := by
        rw [Crew.put_of_ne hj, Crew.put_self]
      exact (heldBy_of_idle hnew).trans (heldBy_of_not_started hi').symm
    · refine heldBy_congr ?_
      exact (Crew.put_of_ne hj).trans (Crew.put_of_ne hji')
  | finish hi =>
    exact ⟨fun j hj => heldBy_congr (Crew.put_of_ne hj), .inr ⟨rfl, .inr (heldBy_of_idle (Crew.put_self _ _ _))⟩⟩
  | abort hi =>
    exact ⟨fun j hj => heldBy_congr (Crew.put_of_ne hj), .inr ⟨rfl, .inr (heldBy_of_idle (Crew.put_self _ _ _))⟩⟩

omit [DecidableEq ι] in
/-- A call has started a thread when its phase says so. -/
theorem started_iff (startArg : Int32) (past : List (Event B.Runner)) (rest : Prog B.Runner Int64) :
    Started (⟨.threadSpawn startArg, past, rest⟩ : Task B.Runner GuestCall Int64) ↔
      ∃ threadId, phase ⟨.threadSpawn startArg, past, rest⟩ = .started threadId := by
  induction past using List.reverseRecOn with
  | nil =>
    constructor
    · rintro ⟨_, _, hmem⟩
      cases hmem
    · rintro ⟨_, hphase⟩
      cases hphase
  | append_singleton past ev ih =>
    rw [phase_snoc _ past rest rest]
    have hsplit : Started (⟨.threadSpawn startArg, past ++ [ev], rest⟩ : Task B.Runner GuestCall Int64) ↔
        Started (⟨.threadSpawn startArg, past, rest⟩ : Task B.Runner GuestCall Int64) ∨
          ∃ threadId arg, ev = ⟨.inr (.inr (.spawn threadId arg)), true⟩ := by
      simp only [Started, List.mem_append, List.mem_singleton]
      constructor
      · rintro ⟨threadId, arg, hmem | hmem⟩
        · exact .inl ⟨threadId, arg, hmem⟩
        · exact .inr ⟨threadId, arg, hmem.symm⟩
      · rintro (⟨threadId, arg, hmem⟩ | ⟨threadId, arg, hmem⟩)
        · exact ⟨threadId, arg, .inl hmem⟩
        · exact ⟨threadId, arg, .inr hmem.symm⟩
    rw [hsplit, ih]
    generalize phase (⟨.threadSpawn startArg, past, rest⟩ : Task B.Runner GuestCall Int64) = f
    constructor
    · rintro (⟨threadId, rfl⟩ | ⟨threadId, arg, rfl⟩)
      · obtain ⟨c | c | c, r⟩ := ev
        · exact ⟨threadId, rfl⟩
        · exact ⟨threadId, rfl⟩
        · exact ⟨threadId, rfl⟩
      · cases f with
        | started threadId' => exact ⟨threadId', rfl⟩
        | fresh => exact ⟨threadId, rfl⟩
        | drew _ => exact ⟨threadId, rfl⟩
        | refused => exact ⟨threadId, rfl⟩
    · rintro ⟨threadId, hnext⟩
      obtain ⟨c | c | c, r⟩ := ev
      · exact .inl ⟨threadId, hnext⟩
      · exact .inl ⟨threadId, hnext⟩
      · cases f with
        | started threadId' => exact .inl ⟨threadId', rfl⟩
        | _ =>
          cases c with
          | fetchAdd => cases hnext
          | spawn threadId' arg =>
            change Bool at r
            cases r with
            | true => exact .inr ⟨threadId', arg, rfl⟩
            | false => cases hnext

/-- At its end a call that has started a thread returns the id it holds. -/
theorem ends_held {m : GuestMove B ι} (h : InPhase m.before) (hstep : Crew.Step (guestRules B) m.before m.who m.deed m.after)
    {task : Task B.Runner GuestCall Int64} {v : Int64} (hend : EndsSpawn m task v) :
    heldBy m.after m.who = none ∧ (Started task → ∃ threadId, heldBy m.before m.who = some threadId ∧ v = threadId.toInt64) ∧
      (¬Started task → v = (negErrno .eagain).toInt64) := by
  obtain ⟨P, i, deed, P'⟩ := m
  obtain ⟨hdeed, startArg, hcall⟩ := hend
  simp only at hstep hdeed ⊢
  subst hdeed
  cases hstep with
  | @finish own call past _ hi =>
    simp only at hcall
    subst hcall
    have hreturns : Returns v (phase ⟨.threadSpawn startArg, past, .ret v⟩) := (h.of_member hi).2
    refine ⟨heldBy_of_idle (Crew.put_self _ _ _), ?_⟩
    rw [started_iff, heldBy_of_task hi]
    cases hphase : phase (⟨.threadSpawn startArg, past, .ret v⟩ : Task B.Runner GuestCall Int64) with
    | fresh =>
      rw [hphase] at hreturns
      exact hreturns.elim
    | started threadId =>
      rw [hphase] at hreturns
      exact ⟨fun _ => ⟨threadId, rfl, hreturns⟩, fun hnot => absurd ⟨threadId, rfl⟩ hnot⟩
    | drew threadId =>
      rw [hphase] at hreturns
      exact ⟨nofun, fun _ => hreturns⟩
    | refused =>
      rw [hphase] at hreturns
      exact ⟨nofun, fun _ => hreturns⟩

/-! ### A run -/

/-- While the counter is in range: the ids that are held are below it and apart, those that were returned are below it and not held. -/
structure Inv (log : List (GuestMove B ι)) (P : Guest B ι) : Prop where
  inPhase : InPhase P
  low : 0 < P.shared.nextThreadId.toInt
  high : P.shared.nextThreadId.toInt ≤ maxThreadId + 1
  held : ∀ i threadId, heldBy P i = some threadId → 0 < threadId.toInt ∧ threadId.toInt < P.shared.nextThreadId.toInt
  apart : ∀ i j threadId, heldBy P i = some threadId → heldBy P j = some threadId → i = j
  given : ∀ m ∈ log, ∀ task v, EndsSpawn m task v → Started task →
    v.toInt < P.shared.nextThreadId.toInt ∧ ∀ i threadId, heldBy P i = some threadId → threadId.toInt ≠ v.toInt
  well : IdsWell log

/-- What each thread holds after a step, if it is not the one that draws an id, it held before. -/
theorem Inv.held_before {log : List (GuestMove B ι)} {m : GuestMove B ι} (h : Inv log m.before)
    (hstep : Crew.Step (guestRules B) m.before m.who m.deed m.after) {i : ι} {threadId : Int32}
    (hi : heldBy m.after i = some threadId) :
    heldBy m.before i = some threadId ∨
      (i = m.who ∧ threadId = m.before.shared.nextThreadId ∧
        m.after.shared.nextThreadId = m.before.shared.nextThreadId + 1 ∧
        ∃ task r, m.deed = .issue task (.inr (.inr .fetchAdd)) r) := by
  obtain ⟨hothers, hown⟩ := step_held h.inPhase hstep
  by_cases hwho : i = m.who
  · subst hwho
    rcases hown with ⟨hdraw, -, hsome, hnext⟩ | ⟨-, hsame | hnone⟩
    · rw [hsome] at hi
      exact .inr ⟨rfl, (Option.some.inj hi).symm, hnext, hdraw⟩
    · rw [hsame] at hi
      exact .inl hi
    · rw [hnone] at hi
      cases hi
  · rw [hothers i hwho] at hi
    exact .inl hi

omit [DecidableEq ι] in
/-- A counter in range moves by one without wrapping. -/
theorem toInt_succ {x : Int32} (hlow : 0 < x.toInt) (hhigh : x.toInt ≤ maxThreadId) : (x + 1).toInt = x.toInt + 1 := by
  unfold maxThreadId at hhigh
  rw [Int32.toInt_add, show (1 : Int32).toInt = 1 from by decide]
  exact Int.bmod_eq_of_le (by omega) (by omega)

/-- A step keeps the invariant, if it finds the counter in the ABI's range. -/
theorem Inv.step {log : List (GuestMove B ι)} {m : GuestMove B ι} (h : Inv log m.before) (hG : CounterInRange m)
    (hstep : Crew.Step (guestRules B) m.before m.who m.deed m.after) : Inv (log ++ [m]) m.after := by
  have hlow := h.low
  have hdraw {task : Task B.Runner GuestCall Int64} {r : Int32} (hdeed : m.deed = .issue task (.inr (.inr .fetchAdd)) r) :
      (m.before.shared.nextThreadId + 1).toInt = m.before.shared.nextThreadId.toInt + 1 := toInt_succ hlow (hG task r hdeed)
  have hcounter : m.before.shared.nextThreadId.toInt ≤ m.after.shared.nextThreadId.toInt ∧
      m.after.shared.nextThreadId.toInt ≤ maxThreadId + 1 := by
    rcases (step_held h.inPhase hstep).2 with ⟨⟨task, r, hdeed⟩, -, -, hnext⟩ | ⟨hsame, -⟩
    · have hrange := hG task r hdeed
      rw [hnext, hdraw hdeed]
      omega
    · rw [hsame]
      exact ⟨Int.le_refl _, h.high⟩
  obtain ⟨hle, hhigh⟩ := hcounter
  have hends {task : Task B.Runner GuestCall Int64} {v : Int64} (hend : EndsSpawn m task v) (hstarted : Started task) :
      heldBy m.after m.who = none ∧ ∃ threadId, heldBy m.before m.who = some threadId ∧ v.toInt = threadId.toInt := by
    obtain ⟨hnone, hsome, -⟩ := ends_held h.inPhase hstep hend
    obtain ⟨threadId, hheld, rfl⟩ := hsome hstarted
    exact ⟨hnone, threadId, hheld, Int32.toInt_toInt64 threadId⟩
  refine ⟨inPhase_step h.inPhase hstep, by omega, hhigh, ?_, ?_, ?_, ?_⟩
  · intro i threadId hi
    rcases h.held_before hstep hi with hold | ⟨-, rfl, hnext, task, r, hdeed⟩
    · have hrange := h.held i threadId hold
      omega
    · rw [hnext, hdraw hdeed]
      omega
  · intro i j threadId hi hj
    rcases h.held_before hstep hi with hold | ⟨rfl, rfl, -, -⟩
    · rcases h.held_before hstep hj with hold' | ⟨-, rfl, -, -⟩
      · exact h.apart i j threadId hold hold'
      · have hrange := h.held i _ hold
        omega
    · rcases h.held_before hstep hj with hold' | ⟨hwho, -, -, -⟩
      · have hrange := h.held j _ hold'
        omega
      · exact hwho.symm
  · intro m' hm' task v hend hstarted
    rcases List.mem_append.mp hm' with hm' | hm'
    · obtain ⟨hlt, hnot⟩ := h.given m' hm' task v hend hstarted
      refine ⟨by omega, ?_⟩
      intro i threadId hi
      rcases h.held_before hstep hi with hold | ⟨-, rfl, -, -⟩
      · exact hnot i threadId hold
      · omega
    · cases List.mem_singleton.mp hm'
      obtain ⟨hnone, threadId, hheld, hv⟩ := hends hend hstarted
      have hrange := h.held _ _ hheld
      refine ⟨by omega, ?_⟩
      intro i threadId' hi heq
      have hne : i ≠ m.who := by
        rintro rfl
        rw [hnone] at hi
        cases hi
      rcases h.held_before hstep hi with hold | ⟨hwho, -, -, -⟩
      · have hsame : threadId' = threadId := Int32.toInt_inj.mp (heq.trans hv)
        exact hne (h.apart i m.who threadId (hsame ▸ hold) hheld)
      · exact hne hwho
  · intro pre m' post hlog task v hend
    rcases snoc_eq_split hlog with ⟨rfl, rfl⟩ | ⟨post', hlog', -⟩
    · refine ⟨?_, (ends_held h.inPhase hstep hend).2.2⟩
      intro hstarted
      obtain ⟨-, threadId, hheld, hv⟩ := hends hend hstarted
      have hrange := h.held _ _ hheld
      have hmax := h.high
      refine ⟨by omega, by omega, ?_⟩
      intro m'' hm'' task' v' hend' hstarted' heq
      exact (h.given m'' hm'' task' v' hend' hstarted').2 _ threadId hheld (heq ▸ hv.symm)
    · exact h.well pre m' post' hlog' task v hend

end

end ThreadIdsAux

section
variable {ι : Type} [DecidableEq ι]

/-- In every run of the guest threads in which each `fetch_add` finds the counter in the ABI's range, every thread that is started has an id
of that range that no thread was given before, and every other `thread-spawn` call returns `-EAGAIN`. -/
theorem thread_ids (B : Build) (main : ι) (cli : RunnerCli) (preopens : List (PreopenMapping B.Path)) (log : List (GuestMove B ι))
    (P : Guest B ι) (h : GuestRun B main cli preopens log P) (hrange : ∀ m ∈ log, CounterInRange m) : IdsWell log := by
  have hidle (i : ι) : ThreadIdsAux.heldBy (.alone main ⟨!cli.noNetwork⟩ (.start B cli preopens) : Guest B ι) i = none := by
    by_cases hi : i = main
    · subst hi
      exact ThreadIdsAux.heldBy_of_idle (Crew.put_self _ _ _)
    · exact ThreadIdsAux.heldBy_of_not_started (Crew.put_of_ne hi)
  have hstart : ThreadIdsAux.Inv [] (.alone main ⟨!cli.noNetwork⟩ (.start B cli preopens) : Guest B ι) := by
    have hone : (RuntimeEnv.start B cli preopens).nextThreadId.toInt = 1 := (by decide : (1 : Int32).toInt = 1)
    refine ⟨.alone main trivial trivial, ?_, ?_, ?_, ?_, ?_, ?_⟩
    · rw [Crew.alone, Crew.put_shared, hone]
      omega
    · rw [Crew.alone, Crew.put_shared, hone]
      unfold maxThreadId
      omega
    · intro i threadId hi
      rw [hidle] at hi
      cases hi
    · intro i j threadId hi
      rw [hidle] at hi
      cases hi
    · intro m hm
      cases hm
    · intro pre m post hlog
      simp at hlog
  exact (Crew.Run.invariant hstart (fun log m hbefore hG hstep => hbefore.step hG hstep) h hrange).well

end

namespace ThreadIdsAux

section
variable {B : Build}

/-- What is left of a `thread-spawn` call after `fetch_add`. -/
def afterFetch (B : Build) (threadId : Int32) : Prog B.Runner Int64 :=
  (Int32.toInt64 <$> (if threadId ≤ 0 then pure (negErrno .eagain) else do
    let spawned ← .cmd (S := Runtime) (.spawn threadId 0)
    if spawned then return threadId else return negErrno .eagain : Prog Runtime Int32)).inr.inr

/-- What is left of it after the host's answer. -/
def afterSpawn (B : Build) (threadId : Int32) (spawned : Bool) : Prog B.Runner Int64 :=
  .ret (if spawned then threadId.toInt64 else (negErrno .eagain).toInt64)

/-- A `thread-spawn` call begins with `fetch_add`. -/
theorem guestProg_threadSpawn : guestProg B (.threadSpawn 0) = .call (.inr (.inr .fetchAdd)) (afterFetch B) := rfl

/-- It goes on if the id is positive, ... -/
theorem afterFetch_of_pos {threadId : Int32} (h : ¬threadId ≤ 0) :
    afterFetch B threadId = .call (.inr (.inr (.spawn threadId 0))) (afterSpawn B threadId) := by
  unfold afterFetch
  rw [if_neg h]
  refine congrArg (Prog.call _) (funext fun spawned => ?_)
  change Bool at spawned
  cases spawned <;> rfl

/-- ... and is refused otherwise. -/
theorem afterFetch_of_nonpos {threadId : Int32} (h : threadId ≤ 0) : afterFetch B threadId = .ret (negErrno .eagain).toInt64 := by
  unfold afterFetch
  rw [if_pos h]
  rfl

/-- A `thread-spawn` call that starts no thread: the host refuses, or the id is not positive. -/
theorem runs_refused (own : ThreadStore) (s : RuntimeEnv B) : ∃ tr o, Runs (threadMachine B own) (guestProg B (.threadSpawn 0)) s tr o
    { s with nextThreadId := s.nextThreadId + 1 } ∧ ∀ ev ∈ tr, ∀ s', threadStarts B s' ev.1 ev.2 = none := by
  rw [guestProg_threadSpawn]
  by_cases hpos : s.nextThreadId ≤ 0
  · have hrest : Runs (threadMachine B own) (afterFetch B s.nextThreadId) { s with nextThreadId := s.nextThreadId + 1 } []
        (.returned (negErrno .eagain).toInt64) { s with nextThreadId := s.nextThreadId + 1 } := by
      rw [afterFetch_of_nonpos hpos]
      exact .ret _ _
    refine ⟨_, _, .call ⟨rfl, rfl⟩ hrest, ?_⟩
    intro ev hev s'
    cases List.mem_singleton.mp hev
    rfl
  · have hrest : Runs (threadMachine B own) (afterFetch B s.nextThreadId) { s with nextThreadId := s.nextThreadId + 1 }
        [(⟨.inr (.inr (.spawn s.nextThreadId 0)), false⟩ : Event B.Runner)] (.returned (negErrno .eagain).toInt64)
        { s with nextThreadId := s.nextThreadId + 1 } := by
      rw [afterFetch_of_pos hpos]
      exact .call rfl (.ret _ _)
    refine ⟨_, _, .call ⟨rfl, rfl⟩ hrest, ?_⟩
    intro ev hev s'
    rcases List.mem_cons.mp hev with rfl | hev
    · rfl
    · cases List.mem_singleton.mp hev
      rfl

variable {ι : Type} [DecidableEq ι] {P₀ P : Guest B ι} {log : List (GuestMove B ι)}

/-- A `thread-spawn` call that starts a thread, when the counter is positive: four moves, of which the last returns the id. -/
theorem run_started {own : ThreadStore} {i j : ι}
    (h : Crew.Run (guestRules B) P₀ log P) (hi : P.member i = some ⟨own, none⟩) (hj : P.member j = none)
    (hpos : 0 < P.shared.nextThreadId.toInt) :
    ∃ (moves : List (GuestMove B ι)) (m : GuestMove B ι) (P' : Guest B ι) (task : Task B.Runner GuestCall Int64),
      Crew.Run (guestRules B) P₀ (log ++ moves ++ [m]) P' ∧ EndsSpawn m task P.shared.nextThreadId.toInt64 ∧ Started task := by
  have hne : ¬P.shared.nextThreadId ≤ 0 := by
    rw [Int32.le_iff_toInt_le]
    exact Int.not_le.mpr hpos
  have hij : j ≠ i := by
    rintro rfl
    rw [hi] at hj
    cases hj
  let threadId := P.shared.nextThreadId
  let drawn : List (Event B.Runner) := [⟨.inr (.inr .fetchAdd), threadId⟩]
  let P₁ : Guest B ι := P.put i ⟨own, some ⟨.threadSpawn 0, [], guestProg B (.threadSpawn 0)⟩⟩
  let P₂ : Guest B ι :=
    { P₁.put i ⟨own, some ⟨.threadSpawn 0, drawn, afterFetch B threadId⟩⟩ with shared := { P.shared with nextThreadId := threadId + 1 } }
  have hP₁ : P₁.member i = some ⟨own, some ⟨.threadSpawn 0, [], .call (.inr (.inr .fetchAdd)) (afterFetch B)⟩⟩ := Crew.put_self _ _ _
  have hP₂ : P₂.member i = some ⟨own, some ⟨.threadSpawn 0, drawn, .call (.inr (.inr (.spawn threadId 0))) (afterSpawn B threadId)⟩⟩ := by
    rw [← afterFetch_of_pos hne]
    exact Crew.put_self _ _ _
  have hj₂ : P₂.member j = none := (Crew.put_of_ne hij).trans ((Crew.put_of_ne hij).trans hj)
  have h₁ := h.snoc ⟨P, i, _, P₁⟩ (.start (.threadSpawn 0) hi)
  have h₂ := h₁.snoc ⟨P₁, i, _, P₂⟩ (.issue hP₁ ⟨rfl, rfl⟩ rfl)
  have h₃ := h₂.snoc ⟨P₂, i, _, _⟩ (.spawn (r := true) hP₂ rfl rfl hj₂)
  have h₄ := h₃.snoc ⟨_, i, _, _⟩ (.finish (Crew.put_self _ _ _))
  rw [List.append_assoc log, List.append_assoc log] at h₄
  exact ⟨_, _, _, _, h₄, ⟨rfl, 0, rfl⟩, threadId, 0, List.mem_append_right _ List.mem_cons_self⟩

end

end ThreadIdsAux

/-- The runner with no flag but `--no-default-preopen`. -/
def plainCli : RunnerCli := ⟨⟨true, []⟩, false⟩

namespace ThreadIdsAux

/-- So many calls that start no thread move the counter so far. -/
theorem run_refused (n : Nat) : ∃ (log : List (GuestMove (unixBuild linux) Nat)) (P : Guest (unixBuild linux) Nat),
    GuestRun (unixBuild linux) 0 plainCli [] log P ∧ P.member 0 = some ⟨⟨true⟩, none⟩ ∧ P.member 1 = none ∧
      P.shared.nextThreadId = Int32.ofNat (n + 1) := by
  induction n with
  | zero => exact ⟨[], _, .nil, rfl, rfl, rfl⟩
  | succ n ih =>
    obtain ⟨log, P, hrun, hmain, hother, hnext⟩ := ih
    obtain ⟨tr, o, hcall, hquiet⟩ := runs_refused ⟨true⟩ P.shared
    obtain ⟨log', hrun'⟩ := hrun.call (.threadSpawn 0) hmain hcall hquiet
    refine ⟨_, _, hrun', hmain, hother, ?_⟩
    show P.shared.nextThreadId + 1 = Int32.ofNat (n + 1 + 1)
    rw [hnext, Int32.ofNat_add (n + 1) 1]
    rfl

end ThreadIdsAux

/-- The main thread starts a thread, whose id is 1. Then both ask for one at the same time: the host refuses that of the new thread, which has
drawn 2, and that of the main thread has the id 3. -/
theorem thread_ids_first : ∃ (log : List (GuestMove (unixBuild linux) Nat)) (P : Guest (unixBuild linux) Nat),
    GuestRun (unixBuild linux) 0 plainCli [] log P ∧ log.map Crew.Move.who = [0, 0, 0, 0, 1, 0, 1, 0, 1, 1, 0, 0] ∧
    (∃ m ∈ log, ∃ task, EndsSpawn m task 1 ∧ Started task) ∧
    (∃ m ∈ log, ∃ task, m.who = 1 ∧ EndsSpawn m task (negErrno .eagain).toInt64 ∧ ¬Started task) ∧
    (∃ m ∈ log, ∃ task, m.who = 0 ∧ EndsSpawn m task 3 ∧ Started task) ∧ IdsWell log := by
  have hkept (s : RuntimeEnv (unixBuild linux)) (threadId : Int32) (spawned : Bool) :
      threadMachine (unixBuild linux) ⟨true⟩ s (.inr (.inr (.spawn threadId 0))) spawned s := rfl
  have hstarts (s : RuntimeEnv (unixBuild linux)) (threadId : Int32) (hcli : s.cli = plainCli) :
      threadStarts (unixBuild linux) s (.inr (.inr (.spawn threadId 0))) true = some ⟨true⟩ := by
    show some (ThreadStore.mk !s.cli.noNetwork) = some ⟨true⟩
    rw [hcli]
    rfl
  have h₀ : GuestRun (unixBuild linux) 0 plainCli [] [] (.alone 0 ⟨true⟩ (.start (unixBuild linux) plainCli [])) := .nil
  obtain ⟨P₁, h₁, hmain₁, hs₁, hother₁⟩ := h₀.started (Crew.put_self _ _ _) (.threadSpawn 0)
  obtain ⟨P₂, h₂, hmain₂, hs₂, hother₂⟩ := h₁.issued (r := (1 : Int32)) hmain₁ ⟨by rw [hs₁]; rfl, rfl⟩ rfl
  obtain ⟨P₃, h₃, hmain₃, hthread₃, hs₃, hother₃⟩ := h₂.spawned (r := true) (j := 1) hmain₂ (hkept _ 1 true)
    (hstarts _ 1 (by rw [hs₂, hs₁]; rfl)) ((hother₂ 1 (by decide)).trans (hother₁ 1 (by decide)))
  obtain ⟨P₄, h₄, hmain₄, hs₄, hother₄⟩ := h₃.finished hmain₃
  obtain ⟨P₅, h₅, hthread₅, hs₅, hother₅⟩ := h₄.started ((hother₄ 1 (by decide)).trans hthread₃) (.threadSpawn 0)
  obtain ⟨P₆, h₆, hmain₆, hs₆, hother₆⟩ := h₅.started ((hother₅ 0 (by decide)).trans hmain₄) (.threadSpawn 0)
  obtain ⟨P₇, h₇, hthread₇, hs₇, hother₇⟩ := h₆.issued (r := (2 : Int32)) ((hother₆ 1 (by decide)).trans hthread₅)
    ⟨by rw [hs₆, hs₅, hs₄, hs₃, hs₂, hs₁]; rfl, rfl⟩ rfl
  obtain ⟨P₈, h₈, hmain₈, hs₈, hother₈⟩ := h₇.issued (r := (3 : Int32)) ((hother₇ 0 (by decide)).trans hmain₆)
    ⟨by rw [hs₇, hs₆, hs₅, hs₄, hs₃, hs₂, hs₁]; rfl, rfl⟩ rfl
  obtain ⟨P₉, h₉, hthread₉, hs₉, hother₉⟩ := h₈.issued (r := false) ((hother₈ 1 (by decide)).trans hthread₇) (hkept _ 2 false) rfl
  obtain ⟨P₁₀, h₁₀, -, hs₁₀, hother₁₀⟩ := h₉.finished hthread₉
  have hcli : P₁₀.shared.cli = plainCli := by
    rw [hs₁₀, hs₉, hs₈, hs₇, hs₆, hs₅, hs₄, hs₃, hs₂, hs₁]
    rfl
  have hnone : P₁₀.member 2 = none := by
    rw [hother₁₀ 2 (by decide), hother₉ 2 (by decide), hother₈ 2 (by decide), hother₇ 2 (by decide), hother₆ 2 (by decide),
      hother₅ 2 (by decide), hother₄ 2 (by decide), hother₃ 2 (by decide) (by decide), hother₂ 2 (by decide), hother₁ 2 (by decide)]
    rfl
  have hmain₁₀ := ((hother₁₀ 0 (by decide)).trans (hother₉ 0 (by decide))).trans hmain₈
  obtain ⟨P₁₁, h₁₁, hmain₁₁, -, -, -⟩ := h₁₀.spawned (r := true) (j := 2) hmain₁₀ (hkept _ 3 true) (hstarts _ 3 hcli) hnone
  obtain ⟨P₁₂, h₁₂, -⟩ := h₁₁.finished hmain₁₁
  have hlast {l : List (GuestMove (unixBuild linux) Nat)} {m : GuestMove (unixBuild linux) Nat} : m ∈ l ++ [m] :=
    List.mem_append_right _ List.mem_cons_self
  have hkeep {l : List (GuestMove (unixBuild linux) Nat)} {m m' : GuestMove (unixBuild linux) Nat} (h : m ∈ l) : m ∈ l ++ [m'] :=
    List.mem_append_left _ h
  refine ⟨_, _, h₁₂, rfl,
    ⟨_, hkeep (hkeep (hkeep (hkeep (hkeep (hkeep (hkeep (hkeep hlast))))))), _, ⟨rfl, 0, rfl⟩, 1, 0, List.mem_append_right _ List.mem_cons_self⟩,
    ⟨_, hkeep (hkeep hlast), _, rfl, ⟨rfl, 0, rfl⟩, ?_⟩, ⟨_, hlast, _, rfl, ⟨rfl, 0, rfl⟩, 3, 0, List.mem_append_right _ List.mem_cons_self⟩, ?_⟩
  · rintro ⟨threadId, startArg, hspawn⟩
    simp at hspawn
  · refine thread_ids (unixBuild linux) 0 plainCli [] _ P₁₂ h₁₂ ?_
    intro m hm
    simp only [List.nil_append, List.mem_append, List.mem_cons, List.not_mem_nil, or_false, or_assoc] at hm
    rcases hm with rfl | rfl | rfl | rfl | rfl | rfl | rfl | rfl | rfl | rfl | rfl | rfl
    all_goals intro task r hdeed; cases hdeed
    · show P₁.shared.nextThreadId.toInt ≤ maxThreadId
      rw [hs₁]
      decide
    · show P₆.shared.nextThreadId.toInt ≤ maxThreadId
      rw [hs₆, hs₅, hs₄, hs₃, hs₂, hs₁]
      decide
    · show P₇.shared.nextThreadId.toInt ≤ maxThreadId
      rw [hs₇, hs₆, hs₅, hs₄, hs₃, hs₂, hs₁]
      decide

/-- After `0x1FFFFFFF` calls that start no thread, a call starts one whose id is past the ABI's range. -/
theorem thread_ids_past_abi : ∃ (log : List (GuestMove (unixBuild linux) Nat)) (P : Guest (unixBuild linux) Nat),
    GuestRun (unixBuild linux) 0 plainCli [] log P ∧ ¬IdsWell log := by
  obtain ⟨log, P, hrun, hmain, hother, hnext⟩ := ThreadIdsAux.run_refused 0x1FFFFFFF
  have hid : P.shared.nextThreadId.toInt = 0x20000000 := by
    rw [hnext]
    decide
  obtain ⟨moves, m, P', task, hrun', hend, hstarted⟩ := ThreadIdsAux.run_started hrun hmain hother (by omega)
  refine ⟨_, P', hrun', fun hwell => ?_⟩
  obtain ⟨-, hle, -⟩ := (hwell (log ++ moves) m [] rfl task _ hend).1 hstarted
  rw [Int32.toInt_toInt64, hid] at hle
  exact absurd hle (by unfold maxThreadId; decide)

end WasmtimeMysql
