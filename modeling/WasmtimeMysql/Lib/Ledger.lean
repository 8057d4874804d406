import Mathlib.Data.List.Basic
import WasmtimeMysql.Lib.Prog

/-!
# What became of the handles a system gave out

A system gives out handles under numbers and takes them back. A number may come again once its handle is closed, so a handle is known by
its place in the order they were given out, and a close of a number releases the handle that is open under it, if there is one. The ledger
keeps both: the numbers given out, and what each close released. It carries its invariant: at most one handle is open under a number, and
none was released twice.

A close that released nothing is a mistake of the program: it closed a number it had closed before, or that it never had. A program that
makes no such close and leaves no number open has closed every handle exactly once (`Ledger.count_closes_eq_one`).
-/

namespace Effects

variable {S : Sig} {R : Type}

/-- The numbers given out, in order, and the handle that each close released. -/
structure History (R : Type) where
  numbers : List R
  closes : List (Option Nat)

/-- The handle was given out under the number and has not been closed. -/
def History.IsOpen (h : History R) (r : R) (i : Nat) : Prop := h.numbers[i]? = some r ∧ some i ∉ h.closes

instance [DecidableEq R] (h : History R) (r : R) (i : Nat) : Decidable (h.IsOpen r i) :=
  inferInstanceAs (Decidable (h.numbers[i]? = some r ∧ some i ∉ h.closes))

/-- A history in which no number was given out while it was open, and no handle was released before it was given out or twice. -/
structure Ledger (R : Type) extends History R where
  known : ∀ i, some i ∈ closes → i < numbers.length
  apart : ∀ r i j, toHistory.IsOpen r i → toHistory.IsOpen r j → i = j
  once : ∀ i, closes.count (some i) ≤ 1

namespace Ledger

/-- Nothing given out. -/
def empty : Ledger R where
  numbers := []
  closes := []
  known := nofun
  apart _ _ _ h := nomatch h.1
  once _ := Nat.zero_le 1

variable [DecidableEq R]

/-- The handle that is open under a number. -/
def openAs (k : Ledger R) (r : R) : Option Nat :=
  (List.range k.numbers.length).find? fun i => k.IsOpen r i

section
variable {k : Ledger R} {r x : R} {i : Nat}

theorem openAs_eq_none_iff : k.openAs r = none ↔ ∀ i, ¬k.IsOpen r i := by
  rw [openAs, List.find?_eq_none]
  constructor
  · intro h i hi
    have hlt : i < k.numbers.length := (List.getElem?_eq_some_iff.mp hi.1).1
    exact h i (List.mem_range.mpr hlt) (decide_eq_true hi)
  · intro h i _ hi
    exact h i (of_decide_eq_true hi)

theorem openAs_eq_some_iff : k.openAs r = some i ↔ k.IsOpen r i := by
  constructor
  · intro h
    have hopen := List.find?_some h
    exact of_decide_eq_true hopen
  · intro h
    cases hj : k.openAs r with
    | none => exact absurd h (openAs_eq_none_iff.mp hj i)
    | some j =>
      have hopen := List.find?_some hj
      rw [k.apart r i j h (of_decide_eq_true hopen)]

/-- A handle under a number that is not open. -/
def obtain (k : Ledger R) (r : R) (h : k.openAs r = none) : Ledger R where
  numbers := k.numbers ++ [r]
  closes := k.closes
  known i hi := by
    rw [List.length_append]
    exact Nat.lt_add_right 1 (k.known i hi)
  apart x i j hi hj := by
    have hfree := openAs_eq_none_iff.mp h
    -- a handle open after is the new one, or was open before
    have hold (i : Nat) (hi : (k.numbers ++ [r])[i]? = some x ∧ some i ∉ k.closes) :
        (i = k.numbers.length ∧ x = r) ∨ k.IsOpen x i := by
      by_cases hlt : i < k.numbers.length
      · rw [List.getElem?_append_left hlt] at hi
        exact .inr hi
      · rw [List.getElem?_append_right (Nat.le_of_not_lt hlt), List.getElem?_singleton] at hi
        split at hi
        · refine .inl ⟨?_, (Option.some.inj hi.1).symm⟩
          omega
        · exact nomatch hi.1
    rcases hold i hi with ⟨hlast, rfl⟩ | hbefore
    · rcases hold j hj with ⟨hlast', -⟩ | hbefore'
      · rw [hlast, hlast']
      · exact absurd hbefore' (hfree j)
    · rcases hold j hj with ⟨-, rfl⟩ | hbefore'
      · exact absurd hbefore (hfree i)
      · exact k.apart x i j hbefore hbefore'
  once := k.once

/-- A close of a number releases what is open under it. -/
def close (k : Ledger R) (r : R) : Ledger R where
  numbers := k.numbers
  closes := k.closes ++ [k.openAs r]
  known i hi := by
    rcases List.mem_append.mp hi with hi | hi
    · exact k.known i hi
    · have hopen := openAs_eq_some_iff.mp (List.mem_singleton.mp hi).symm
      exact (List.getElem?_eq_some_iff.mp hopen.1).1
  apart x i j hi hj := by
    have hold (i : Nat) (hi : k.numbers[i]? = some x ∧ some i ∉ k.closes ++ [k.openAs r]) : k.IsOpen x i :=
      ⟨hi.1, fun hmem => hi.2 (List.mem_append_left _ hmem)⟩
    exact k.apart x i j (hold i hi) (hold j hj)
  once i := by
    rw [List.count_append, List.count_singleton]
    split
    · rename_i hi
      have hopen := openAs_eq_some_iff.mp (beq_iff_eq.mp hi)
      have hzero := List.count_eq_zero_of_not_mem hopen.2
      omega
    · exact k.once i

variable (k r) in
@[simp] theorem closes_close : (k.close r).closes = k.closes ++ [k.openAs r] := rfl

/-- What is open after a new handle. -/
theorem openAs_obtain (h : k.openAs r = none) :
    (k.obtain r h).openAs x = if x = r then some k.numbers.length else k.openAs x := by
  have hnew : (k.obtain r h).IsOpen r k.numbers.length := by
    refine ⟨List.getElem?_concat_length, fun hmem => ?_⟩
    exact Nat.lt_irrefl _ (k.known _ hmem)
  split
  · rename_i hx
    rw [hx]
    exact openAs_eq_some_iff.mpr hnew
  · rename_i hx
    refine Option.ext fun i => ?_
    rw [openAs_eq_some_iff, openAs_eq_some_iff]
    refine and_congr_left fun _ => ?_
    show (k.numbers ++ [r])[i]? = some x ↔ _
    by_cases hlt : i < k.numbers.length
    · rw [List.getElem?_append_left hlt]
    · rw [List.getElem?_append_right (Nat.le_of_not_lt hlt), List.getElem?_eq_none (Nat.le_of_not_lt hlt), List.getElem?_singleton]
      split
      · simp [Ne.symm hx]
      · simp

/-- What is open after a close. -/
theorem openAs_close : (k.close r).openAs x = if x = r then none else k.openAs x := by
  split
  · rename_i hx
    rw [hx, openAs_eq_none_iff]
    rintro i ⟨hnumber, hclosed⟩
    have hopen : k.IsOpen r i := ⟨hnumber, fun hmem => hclosed (List.mem_append_left _ hmem)⟩
    refine hclosed (List.mem_append_right _ ?_)
    exact List.mem_singleton.mpr (openAs_eq_some_iff.mpr hopen).symm
  · rename_i hx
    refine Option.ext fun i => ?_
    rw [openAs_eq_some_iff, openAs_eq_some_iff]
    refine and_congr_right fun hnumber => ?_
    have hother : some i ≠ k.openAs r := by
      intro hi
      have hopen := openAs_eq_some_iff.mp hi.symm
      have hnumber' : k.numbers[i]? = some x := hnumber
      exact hx (Option.some.inj (hnumber'.symm.trans hopen.1))
    rw [closes_close, List.mem_append, List.mem_singleton, or_iff_left hother]

/-- Where no number is open, every handle was closed once. -/
theorem count_closes_eq_one (hnone : ∀ r, k.openAs r = none) (hi : i < k.numbers.length) : k.closes.count (some i) = 1 := by
  have hmem : some i ∈ k.closes := by
    refine Decidable.byContradiction fun hmem => ?_
    exact openAs_eq_none_iff.mp (hnone k.numbers[i]) i ⟨List.getElem?_eq_getElem hi, hmem⟩
  have hpos := List.count_pos_iff.mpr hmem
  have hle := k.once i
  omega

/-- The open numbers are these, each listed once, and every close so far was of an open number. -/
structure Holds (k : Ledger R) (rs : List R) : Prop where
  nodup : rs.Nodup
  open_iff : ∀ r, k.openAs r ≠ none ↔ r ∈ rs
  released : none ∉ k.closes

/-- Closing the first of them leaves the others. -/
theorem Holds.close {rs : List R} (h : k.Holds (r :: rs)) : (k.close r).Holds rs where
  nodup := (List.nodup_cons.mp h.nodup).2
  open_iff x := by
    rw [openAs_close]
    split
    · rename_i hx
      rw [hx]
      exact iff_of_false (fun hne => hne rfl) (List.nodup_cons.mp h.nodup).1
    · rename_i hx
      rw [h.open_iff, List.mem_cons, or_iff_right hx]
  released := by
    rw [closes_close, List.mem_append, List.mem_singleton]
    rintro (hmem | hnone)
    · exact h.released hmem
    · exact (h.open_iff r).mpr List.mem_cons_self hnone.symm

/-- Where none is open, every handle was closed once. -/
theorem Holds.count_closes (h : k.Holds []) (hi : i < k.numbers.length) : k.closes.count (some i) = 1 := by
  refine count_closes_eq_one ?_ hi
  intro r
  refine Decidable.byContradiction fun hne => ?_
  exact List.not_mem_nil ((h.open_iff r).mp hne)

end

end Ledger

/-! ## A system that gives out handles -/

/-- What a command has to do with handles: the number it was answered with, and the number it closes. -/
structure Handles (S : Sig) (R : Type) where
  made : (c : S.Cmd) → S.Resp c → Option R
  closed : S.Cmd → Option R

variable [DecidableEq R]

/-- A system that gives out only numbers that are not open, and to which a close, whatever it answers, gives the number back. Beyond that
it may answer anything. -/
def Handles.machine (H : Handles S R) : Machine S (Ledger R) := fun k c r k' =>
  match H.closed c with
  | some x => k' = k.close x
  | none =>
    match H.made c r with
    | some x => ∃ h : k.openAs x = none, k' = k.obtain x h
    | none => k' = k

section
variable {E : Type} {H : Handles S R}

/-- A program that closes the numbers of a list one by one closes them all, whatever it is answered. -/
theorem Ledger.Holds.of_runs {raw : E → R} {p : List E → Prog S Unit} (hnil : p [] = .ret ())
    (hcons : ∀ e rest, ∃ c, H.closed c = some (raw e) ∧ p (e :: rest) = .call c fun _ => p rest) {entries : List E}
    {k k' : Ledger R} {tr : List (Event S)} {o : Outcome Unit} (hrun : Runs H.machine (p entries) k tr o k')
    (h : k.Holds (entries.map raw)) : o = .returned () ∧ k'.Holds [] ∧ k'.numbers = k.numbers := by
  induction entries generalizing k tr with
  | nil =>
    rw [hnil] at hrun
    cases hrun
    exact ⟨rfl, h, rfl⟩
  | cons e rest ih =>
    obtain ⟨c, hclosed, hp⟩ := hcons e rest
    rw [hp] at hrun
    cases hrun with
    | call hm hrun =>
      rw [Handles.machine, hclosed] at hm
      cases hm
      obtain ⟨ho, hholds, hnumbers⟩ := ih hrun h.close
      exact ⟨ho, hholds, hnumbers⟩

/-- And it has a run, if the system answers at all. -/
theorem Handles.exists_runs {raw : E → R} {p : List E → Prog S Unit} (hnil : p [] = .ret ())
    (hcons : ∀ e rest, ∃ c, H.closed c = some (raw e) ∧ p (e :: rest) = .call c fun _ => p rest)
    (hanswer : ∀ c, Nonempty (S.Resp c)) (entries : List E) (k : Ledger R) :
    ∃ tr k', Runs H.machine (p entries) k tr (.returned ()) k' := by
  induction entries generalizing k with
  | nil =>
    rw [hnil]
    exact ⟨[], k, .ret () k⟩
  | cons e rest ih =>
    obtain ⟨c, hclosed, hp⟩ := hcons e rest
    obtain ⟨r⟩ := hanswer c
    obtain ⟨tr, k', hrun⟩ := ih (k.close (raw e))
    rw [hp]
    refine ⟨⟨c, r⟩ :: tr, k', .call ?_ hrun⟩
    rw [Handles.machine, hclosed]

end

end Effects
