import Mathlib.Data.List.Sort
import WasmtimeMysql.GuestLibc

/-!
# The comparators of `qsort_r`

`qsort_r` hands its comparator to `qsort` through two static variables, which all calls of a translation unit share. A call that stores its
comparator while another one is sorting takes that one's comparator away, and one that ends clears it. The calls are those of any number of
threads, and those that comparators make: such a call is one more beside the call whose comparison it belongs to, which waits for it.

As long as no call writes a static variable that another one may still read, each call has its own comparator called, with its own argument,
and sorts by its own order (`qsortR_own`). In the other runs it does not (`comparators_mixed`).
-/

namespace WasmtimeMysql

open Effects Effects.Prog

variable {α Cmp Arg ι : Type}

/-- The static variables at the start. -/
def nullStatics : (r : Static) → Static.Value Cmp Arg r
  | .comparatorFn => none
  | .comparatorArg => none

/-- The order of a call: what its comparator answers with its argument. -/
def QsortCall.order (compare : Comparison α Cmp Arg → Int32) (call : QsortCall α Cmp Arg) (x y : α) : Int32 :=
  compare ⟨call.compar, x, y, call.arg⟩

/-- The comparison function is that of a total preorder, as `qsort` requires. -/
def Consistent (order : α → α → Int32) : Prop :=
  (∀ x y, 0 ≤ order x y ↔ order y x ≤ 0) ∧ ∀ x y z, order x y ≤ 0 → order y z ≤ 0 → order x z ≤ 0

/-- The same elements, in order. -/
def SortedBy (order : α → α → Int32) (base sorted : List α) : Prop :=
  sorted.Perm base ∧ sorted.Pairwise fun x y => order x y ≤ 0

/-- Comparisons answered by a comparison function. -/
def comparing (order : α → α → Int32) : Machine (Comparing α) Unit := .oracle (S := Comparing α) fun elements => order elements.1 elements.2

/-- What libc promises of `qsort`: with the answers of a consistent comparison function it returns, with the array sorted by it. -/
def Sorts (qsort : List α → Prog (Comparing α) (List α)) : Prop :=
  ∀ order, Consistent order → ∀ base tr o, Runs (comparing order) (qsort base) () tr o () →
    ∃ sorted, o = .returned sorted ∧ SortedBy order base sorted

/-- A comparison of the call's own. -/
def Comparison.IsOwn (x : Comparison α Cmp Arg) (call : QsortCall α Cmp Arg) : Prop := x.compar = call.compar ∧ x.arg = call.arg

namespace QsortAux

variable {compare : Comparison α Cmp Arg → Int32} {qsort : List α → Prog (Comparing α) (List α)} {call : QsortCall α Cmp Arg}

/-- Every comparison is the call's own. -/
def OwnEvent (call : QsortCall α Cmp Arg) (ev : Event (Statics α Cmp Arg)) : Prop := ∀ x, ev.1 = .other x → x.IsOwn call

theorem ownEvent_cons {ev : Event (Statics α Cmp Arg)} {tr : List (Event (Statics α Cmp Arg))} (hev : ∀ x, ev.1 ≠ .other x)
    (h : ∀ ev ∈ tr, OwnEvent call ev) : ∀ ev' ∈ ev :: tr, OwnEvent call ev' := by
  intro ev' hev'
  rcases List.mem_cons.mp hev' with rfl | hev'
  · exact fun x hx => absurd hx (hev x)
  · exact h ev' hev'

/-! ### A call with static variables of its own -/

/-- The adapter answers by the order of the call whose comparator is stored. -/
theorem wp_adapter {s : (r : Static) → Static.Value Cmp Arg r} (hfn : s .comparatorFn = some call.compar)
    (harg : s .comparatorArg = call.arg) (elements : α × α) :
    wp (registers compare) (waasmtimeMysqlQsortRAdapter elements)
      (fun tr o s' => o = .returned (call.order compare elements.1 elements.2) ∧ s' = s ∧ ∀ ev ∈ tr, OwnEvent call ev) s := by
  refine wp_load.mpr (wp_load.mpr ?_)
  rw [hfn, harg]
  refine wp_other.mpr ⟨rfl, rfl, ownEvent_cons nofun (ownEvent_cons nofun ?_)⟩
  intro ev hev x hx
  cases List.mem_singleton.mp hev
  cases hx
  exact ⟨rfl, rfl⟩

/-- A call by itself compares by its own order only, and ends as `qsort` does with that order. -/
theorem wp_qsortR (s : (r : Static) → Static.Value Cmp Arg r) :
    wp (registers compare) (qsortR qsort call) (fun tr o _ => (∀ ev ∈ tr, OwnEvent call ev) ∧
      ∃ tr', Runs (comparing (call.order compare)) (qsort call.base) () tr' o ()) s := by
  refine wp_store.mpr (wp_store.mpr ?_)
  have hfn :
      Function.update (Function.update s .comparatorFn (some call.compar)) .comparatorArg call.arg .comparatorFn = some call.compar := by
    rw [Function.update_of_ne (by decide), Function.update_self]
  have hadapter (elements : α × α) := @wp_adapter α Cmp Arg compare call _ hfn (Function.update_self ..) elements
  have hsort := wp_through hadapter (qsort call.base)
  refine (wp_bind (p := (qsort call.base).through waasmtimeMysqlQsortRAdapter)).mpr (wp_mono hsort ?_)
  rintro tr o s' ⟨hruns, -, htr⟩
  cases o with
  | panicked => exact ⟨ownEvent_cons nofun (ownEvent_cons nofun htr), hruns⟩
  | returned sorted =>
    rw [wpNext_returned]
    refine wp_store.mpr ?_
    refine wp_store.mpr ?_
    refine ⟨ownEvent_cons nofun (ownEvent_cons nofun ?_), hruns⟩
    intro ev hev x hx
    rcases List.mem_append.mp hev with hev | hev
    · exact htr ev hev x hx
    · have hclear : ∀ ev ∈ ([⟨.store .comparatorFn none, ()⟩, ⟨.store .comparatorArg none, ()⟩] : List (Event (Statics α Cmp Arg))),
          OwnEvent call ev := ownEvent_cons nofun (ownEvent_cons nofun nofun)
      exact hclear ev hev x hx

/-- A call stores both variables before it reads them. -/
theorem not_live_qsortR (call : QsortCall α Cmp Arg) (r : Static) : ¬(qsortR qsort call).Live r := by
  intro hlive
  obtain ⟨hfn, harg⟩ := live_store.mp hlive
  cases r with
  | comparatorFn => exact hfn rfl
  | comparatorArg => exact (live_store.mp harg).1 rfl

end QsortAux

open QsortAux in
/-- In every run of calls in which no call writes a static variable that another one may still read, every comparison that a call has made,
and the one that it waits for, is made by its own comparator with its own argument; and where its order is consistent it does not trap, and
the array it leaves is sorted by that order. -/
theorem qsortR_own [DecidableEq ι] {qsort : List α → Prog (Comparing α) (List α)} (hqsort : Sorts qsort)
    (compare : Comparison α Cmp Arg → Int32)
    {log : List (Move (Statics α Cmp Arg) ι (QsortCall α Cmp Arg) (List α) ((r : Static) → Static.Value Cmp Arg r))}
    {P : Pool (Statics α Cmp Arg) ι (QsortCall α Cmp Arg) (List α) ((r : Static) → Static.Value Cmp Arg r)}
    (hrun : Pool.Run (qsortR qsort) (registers compare) nullStatics log P) (hguard : ∀ m ∈ log, Undisturbing m)
    {i : ι} {job : Job (Statics α Cmp Arg) (QsortCall α Cmp Arg) (List α) ((r : Static) → Static.Value Cmp Arg r)}
    (hjob : P.job i = some job) :
    (∀ e ∈ job.past, ∀ x, e.cmd = .other x → x.IsOwn job.call) ∧
    (∀ x k, job.rest = .call (.other x) k → x.IsOwn job.call) ∧
    (Consistent (job.call.order compare) →
      job.rest ≠ .panic ∧ ∀ sorted, job.rest = .ret sorted → SortedBy (job.call.order compare) job.call.base sorted) := by
  obtain ⟨own, tr, o, s', hrest, hwhole⟩ := (hrun.isPrivate not_live_qsortR hguard i job hjob).exists_runs
  obtain ⟨hevents, tr', hsort⟩ := hwhole.of_wp (wp_qsortR nullStatics)
  refine ⟨?_, ?_, ?_⟩
  · intro e he x hx
    exact hevents e.event (List.mem_append_left _ (List.mem_map_of_mem he)) x hx
  · intro x k hcall
    rw [hcall] at hrest
    cases hrest with
    | call _ _ => exact hevents _ (List.mem_append_right _ List.mem_cons_self) x rfl
  · intro hconsistent
    obtain ⟨sorted, ho, hsorted⟩ := hqsort _ hconsistent _ _ _ hsort
    rw [ho] at hrest
    constructor
    · intro hpanic
      rw [hpanic] at hrest
      cases hrest
    · intro sorted' hret
      rw [hret] at hrest
      cases hrest
      exact hsorted

namespace QsortAux

/-! ### A `qsort` -/

/-- The element before the first one that it is not greater than. -/
def insertComparing (x : α) : List α → Prog (Comparing α) (List α)
  | [] => pure [x]
  | y :: ys => do
    let rc ← cmd (S := Comparing α) (x, y)
    if rc ≤ 0 then pure (x :: y :: ys)
    else do
      let rest ← insertComparing x ys
      pure (y :: rest)

/-- Insertion sort. -/
def sortComparing : List α → Prog (Comparing α) (List α)
  | [] => pure []
  | x :: xs => do
    let sorted ← sortComparing xs
    insertComparing x sorted

section
variable {order : α → α → Int32}

theorem wp_insertComparing (x : α) (ys : List α) : wp (comparing order) (insertComparing x ys)
    (fun _ o _ => o = .returned (ys.orderedInsert (fun x y => order x y ≤ 0) x)) () := by
  induction ys with
  | nil => rfl
  | cons y ys ih =>
    refine Machine.forall_oracle.mpr ?_
    change wp _ (if order x y ≤ 0 then pure (x :: y :: ys) else insertComparing x ys >>= fun rest => pure (y :: rest)) _ _
    rw [List.orderedInsert]
    by_cases hle : order x y ≤ 0
    · rw [if_pos hle, if_pos hle]
      rfl
    · rw [if_neg hle, if_neg hle]
      refine wp_bind.mpr (wp_mono ih ?_)
      rintro _ _ _ rfl
      rfl

theorem wp_sortComparing (xs : List α) : wp (comparing order) (sortComparing xs)
    (fun _ o _ => o = .returned (xs.insertionSort fun x y => order x y ≤ 0)) () := by
  induction xs with
  | nil => rfl
  | cons x xs ih =>
    refine wp_bind.mpr (wp_mono ih ?_)
    rintro _ _ _ rfl
    exact wp_insertComparing x _

theorem sorts_sortComparing : Sorts (sortComparing (α := α)) := by
  intro order ⟨htotal, htrans⟩ base tr o hrun
  have : Std.Total fun x y => order x y ≤ 0 := by
    refine ⟨fun x y => ?_⟩
    rcases Int32.le_total (order x y) 0 with hle | hle
    · exact .inl hle
    · exact .inr ((htotal x y).mp hle)
  have : IsTrans α fun x y => order x y ≤ 0 := ⟨htrans⟩
  exact ⟨_, hrun.of_wp (wp_sortComparing base), List.perm_insertionSort _ base, List.pairwise_insertionSort _ base⟩

end

/-! ### Runs of calls with it -/

/-- A comparator for rising numbers and one for falling numbers. -/
def risingOrFalling (x : Comparison Nat Bool Unit) : Int32 :=
  if x.left = x.right then 0 else if decide (x.left < x.right) = x.compar then -1 else 1

/-- Calls with rising numbers. -/
def rising (base : List Nat) : QsortCall Nat Bool Unit := ⟨base, true, none⟩

theorem order_rising_le {base : List Nat} {x y : Nat} : (rising base).order risingOrFalling x y ≤ 0 ↔ x ≤ y := by
  unfold QsortCall.order risingOrFalling rising
  rcases Nat.lt_trichotomy x y with hlt | rfl | hlt
  · simp [Nat.ne_of_lt hlt, hlt, Nat.le_of_lt hlt]
  · simp
  · simp [Nat.ne_of_gt hlt, Nat.not_lt_of_gt hlt, Nat.not_le_of_gt hlt]

theorem consistent_rising (base : List Nat) : Consistent ((rising base).order risingOrFalling) := by
  constructor
  · intro x y
    rw [order_rising_le]
    unfold QsortCall.order risingOrFalling rising
    rcases Nat.lt_trichotomy x y with hlt | rfl | hlt
    · simp [Nat.ne_of_lt hlt, hlt]
    · simp
    · simp [Nat.ne_of_gt hlt, Nat.not_lt_of_gt hlt, Nat.le_of_lt hlt]
  · intro x y z hxy hyz
    rw [order_rising_le] at *
    exact Nat.le_trans hxy hyz

/-- The calls in progress. -/
abbrev Calls (ι : Type) : Type :=
  Pool (Statics Nat Bool Unit) ι (QsortCall Nat Bool Unit) (List Nat) ((r : Static) → Static.Value Bool Unit r)

/-- What is left of a call that is over. -/
def ended : Outcome (List Nat) → Prog (Statics Nat Bool Unit) (List Nat)
  | .returned sorted => .ret sorted
  | .panicked => .panic

/-- A call that is over, and how it ended. -/
def result (P : Calls ι) (i : ι) : Option (QsortCall Nat Bool Unit × Outcome (List Nat)) :=
  match P.job i with
  | some ⟨c, _, .ret sorted⟩ => some (c, .returned sorted)
  | some ⟨c, _, .panic⟩ => some (c, .panicked)
  | _ => none

theorem job_of_result {P : Calls ι} {i : ι} {c : QsortCall Nat Bool Unit} {o : Outcome (List Nat)} (h : result P i = some (c, o)) :
    ∃ past, P.job i = some ⟨c, past, ended o⟩ := by
  unfold result at h
  split at h
  · rename_i hjob
    cases h
    exact ⟨_, hjob⟩
  · rename_i hjob
    cases h
    exact ⟨_, hjob⟩
  · cases h

section
variable [DecidableEq ι]

/-- The run of a schedule. -/
def played (schedule : List (ι × Option (QsortCall Nat Bool Unit))) :
    List (Move (Statics Nat Bool Unit) ι (QsortCall Nat Bool Unit) (List Nat) ((r : Static) → Static.Value Bool Unit r)) × Calls ι :=
  (Pool.play (qsortR sortComparing) (fun s c => some (Registers.handle risingOrFalling s c)) [] ⟨fun _ => none, nullStatics⟩
    schedule).getD ([], ⟨fun _ => none, nullStatics⟩)

theorem played_run (schedule : List (ι × Option (QsortCall Nat Bool Unit))) :
    Pool.Run (qsortR sortComparing) (registers risingOrFalling) nullStatics (played schedule).1 (played schedule).2 := by
  unfold played
  cases hplay : Pool.play (qsortR sortComparing) (fun s c => some (Registers.handle risingOrFalling s c)) []
      ⟨fun _ => none, nullStatics⟩ schedule with
  | none => exact .nil
  | some r => exact Pool.Run.nil.play (fun _ _ _ _ h => (Option.some.inj h).symm) hplay

/-- A call goes on, so many times. -/
def goOn (i : ι) (n : Nat) : List (ι × Option (QsortCall Nat Bool Unit)) := List.replicate n (i, none)

end

end QsortAux

open QsortAux in
/-- Two threads sort two numbers each, by different orders, one after the other. -/
theorem qsortR_own_in_turn : ∃ log P past, Pool.Run (ι := Bool) (qsortR sortComparing) (registers risingOrFalling) nullStatics log P ∧
    (∀ m ∈ log, Undisturbing m) ∧ P.job false = some ⟨rising [2, 1], past, .ret [1, 2]⟩ ∧
      SortedBy ((rising [2, 1]).order risingOrFalling) [2, 1] [1, 2] := by
  let schedule : List (Bool × Option (QsortCall Nat Bool Unit)) :=
    (true, some ⟨[1, 2], false, none⟩) :: goOn true 8 ++ (false, some (rising [2, 1])) :: goOn false 7
  have halone : ∀ m ∈ (played schedule).1, (m.before.job !m.who).isNone = true := by decide +kernel
  have hguard : ∀ m ∈ (played schedule).1, Undisturbing m := by
    intro m hm r v u _ j job hj hjob
    have hnone := halone m hm
    rw [← Bool.eq_not_of_ne hj, hjob] at hnone
    cases hnone
  have hresult : result (played schedule).2 false = some (rising [2, 1], .returned [1, 2]) := by decide +kernel
  obtain ⟨past, hjob⟩ := job_of_result hresult
  have hown := qsortR_own sorts_sortComparing risingOrFalling (played_run schedule) hguard hjob
  exact ⟨_, _, past, played_run schedule, hguard, hjob, (hown.2.2 (consistent_rising [2, 1])).2 _ rfl⟩

open QsortAux in
/-- Two threads: one sorts two numbers into the wrong order, since the other stores its comparator before the first comparison. One thread:
its comparator sorts an array of its own, and the next comparison is a call through `NULL`. -/
theorem comparators_mixed :
    (∃ log P past, Pool.Run (ι := Bool) (qsortR sortComparing) (registers risingOrFalling) nullStatics log P ∧
      P.job false = some ⟨rising [2, 1], past, .ret [2, 1]⟩ ∧ ¬SortedBy ((rising [2, 1]).order risingOrFalling) [2, 1] [2, 1]) ∧
    ∃ log P past, Pool.Run (ι := Nat) (qsortR sortComparing) (registers risingOrFalling) nullStatics log P ∧
      P.job 0 = some ⟨rising [3, 2, 1], past, .panic⟩ := by
  constructor
  · let schedule : List (Bool × Option (QsortCall Nat Bool Unit)) :=
      (false, some (rising [2, 1])) :: goOn false 2 ++ (true, some ⟨[1, 2], false, none⟩) :: goOn true 2 ++ goOn false 5
    have hresult : result (played schedule).2 false = some (rising [2, 1], .returned [2, 1]) := by decide +kernel
    obtain ⟨past, hjob⟩ := job_of_result hresult
    refine ⟨_, _, past, played_run schedule, hjob, ?_⟩
    rintro ⟨-, hsorted⟩
    have hle : 2 ≤ 1 := order_rising_le.mp ((List.pairwise_cons.mp hsorted).1 1 List.mem_cons_self)
    omega
  · let schedule : List (Nat × Option (QsortCall Nat Bool Unit)) :=
      (0, some (rising [3, 2, 1])) :: goOn 0 4 ++ (1, some ⟨[1], false, none⟩) :: goOn 1 5 ++ goOn 0 3
    have hresult : result (played schedule).2 0 = some (rising [3, 2, 1], .panicked) := by decide +kernel
    obtain ⟨past, hjob⟩ := job_of_result hresult
    exact ⟨_, _, past, played_run schedule, hjob⟩

end WasmtimeMysql
