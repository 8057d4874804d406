import Mathlib.Data.Finset.Basic
import Mathlib.Data.Finset.Lattice.Lemmas
import Mathlib.Data.List.ReduceOption
import WasmtimeMysql.Lib.Prog

/-!
# A heap that may be full

`malloc`, `calloc` and `free` as commands. An allocation may fail at any time; a block that is given out is not in use. To free what is not in
use is a mistake, after which nothing is known of the heap. A program is careful when it makes none, and then what it leaves is what it found,
with the blocks it keeps and without the blocks it gave back (`Heap.wp_malloc`, `Heap.wp_freeAll`).
-/

namespace Effects

variable {Ptr : Type}

/-- The calls to the heap. `none` is `NULL`. -/
inductive Heap.Cmd (Ptr : Type) where
  | calloc (size : Nat)
  | malloc (size : Nat)
  | free (block : Option Ptr)
  deriving DecidableEq, Repr

@[reducible] def Heap.Cmd.Resp : Heap.Cmd Ptr → Type
  | .calloc _ => Option Ptr
  | .malloc _ => Option Ptr
  | .free _ => Unit

/-- The signature of the heap. -/
@[reducible] def Heap.Sig (Ptr : Type) : Sig := ⟨Heap.Cmd Ptr, Heap.Cmd.Resp⟩

/-- The blocks in use, and whether something was freed that was not. -/
structure Heap (Ptr : Type) where
  live : Finset Ptr
  misused : Bool

/-- An allocation that was answered with `NULL`. -/
def Heap.Refused : Event (Heap.Sig Ptr) → Prop
  | ⟨.calloc _, r⟩ => r = none
  | ⟨.malloc _, r⟩ => r = none
  | ⟨.free _, _⟩ => False

variable [DecidableEq Ptr]

namespace Heap

/-- An allocation, which may fail. -/
def Allocates (s : Heap Ptr) (r : Option Ptr) (s' : Heap Ptr) : Prop :=
  (r = none ∧ s' = s) ∨ ∃ p, r = some p ∧ p ∉ s.live ∧ s' = { s with live := insert p s.live }

/-- The machine of the heap. -/
def machine : Machine (Heap.Sig Ptr) (Heap Ptr)
  | s, .calloc _, r, s' => s.Allocates r s'
  | s, .malloc _, r, s' => s.Allocates r s'
  | s, .free none, _, s' => s' = s
  | s, .free (some p), _, s' => s' = { live := s.live.erase p, misused := s.misused || !decide (p ∈ s.live) }

variable {s : Heap Ptr} {size : Nat}

/-- An allocation fails and leaves the heap alone, or gives out a block that was not in use. -/
theorem wp_malloc {Q : List (Event (Heap.Sig Ptr)) → Outcome (Option Ptr) → Heap Ptr → Prop}
    (hnone : ∀ tr, Q tr (.returned none) s)
    (hsome : ∀ tr p, p ∉ s.live → Q tr (.returned (some p)) { s with live := insert p s.live }) :
    wp (α := Option Ptr) machine (.cmd (S := Heap.Sig Ptr) (.malloc size)) Q s := by
  intro r s' hm
  rcases hm with ⟨rfl, rfl⟩ | ⟨p, rfl, hfresh, rfl⟩
  · exact hnone _
  · exact hsome _ p hfresh

theorem wp_calloc {Q : List (Event (Heap.Sig Ptr)) → Outcome (Option Ptr) → Heap Ptr → Prop}
    (hnone : ∀ tr, Q tr (.returned none) s)
    (hsome : ∀ tr p, p ∉ s.live → Q tr (.returned (some p)) { s with live := insert p s.live }) :
    wp (α := Option Ptr) machine (.cmd (S := Heap.Sig Ptr) (.calloc size)) Q s := by
  intro r s' hm
  rcases hm with ⟨rfl, rfl⟩ | ⟨p, rfl, hfresh, rfl⟩
  · exact hnone _
  · exact hsome _ p hfresh

/-- A block that is in use is given back. -/
theorem wp_free {p : Ptr} {Q : List (Event (Heap.Sig Ptr)) → Outcome Unit → Heap Ptr → Prop} (hp : p ∈ s.live)
    (h : ∀ tr, Q tr (.returned ()) { s with live := s.live.erase p }) :
    wp (α := Unit) machine (.cmd (S := Heap.Sig Ptr) (.free (some p))) Q s := by
  intro r s' hm
  have hs' : s' = { s with live := s.live.erase p } := by
    rw [show s' = { live := s.live.erase p, misused := s.misused || !decide (p ∈ s.live) } from hm]
    simp [hp]
  rw [hs']
  exact h _

theorem wp_free_null {Q : List (Event (Heap.Sig Ptr)) → Outcome Unit → Heap Ptr → Prop} (h : ∀ tr, Q tr (.returned ()) s) :
    wp (α := Unit) machine (.cmd (S := Heap.Sig Ptr) (.free none)) Q s := by
  intro r s' hm
  cases hm
  exact h _

/-- One `free` after the other. -/
def freeAll : List (Option Ptr) → Prog (Heap.Sig Ptr) Unit
  | [] => pure ()
  | block :: blocks => do
    Prog.cmd (S := Heap.Sig Ptr) (.free block)
    freeAll blocks

/-- The heap without some blocks. -/
def without (s : Heap Ptr) (blocks : List Ptr) : Heap Ptr := { s with live := s.live \ blocks.toFinset }

/-- The heap with some more blocks. -/
def plus (s : Heap Ptr) (blocks : List Ptr) : Heap Ptr := { s with live := s.live ∪ blocks.toFinset }

theorem without_nil : s.without [] = s := by
  simp [without]

theorem plus_nil : s.plus [] = s := by
  simp [plus]

theorem plus_plus (blocks blocks' : List Ptr) : (s.plus blocks).plus blocks' = s.plus (blocks ++ blocks') := by
  simp [plus]

/-- New blocks that are given back leave what was there. -/
theorem without_plus {blocks : List Ptr} (hfresh : ∀ p ∈ blocks, p ∉ s.live) : (s.plus blocks).without blocks = s := by
  have hlive : (s.live ∪ blocks.toFinset) \ blocks.toFinset = s.live := by
    ext p
    simp only [Finset.mem_sdiff, Finset.mem_union, List.mem_toFinset]
    constructor
    · rintro ⟨hp | hp, hnot⟩
      · exact hp
      · exact absurd hp hnot
    · intro hp
      exact ⟨.inl hp, fun hmem => hfresh p hmem hp⟩
  simp only [plus, without, hlive]

/-- Blocks that are in use, and different, are given back. -/
theorem wp_freeAll {blocks : List (Option Ptr)} (hnodup : blocks.reduceOption.Nodup) (hlive : ∀ p ∈ blocks.reduceOption, p ∈ s.live) :
    wp machine (freeAll blocks) (fun _ o s' => o = .returned () ∧ s' = s.without blocks.reduceOption) s := by
  induction blocks generalizing s with
  | nil => exact ⟨rfl, without_nil.symm⟩
  | cons block blocks ih =>
    refine wp_bind.mpr ?_
    cases block with
    | none =>
      rw [List.reduceOption_cons_of_none] at hnodup hlive ⊢
      exact wp_free_null fun tr => ih hnodup hlive
    | some p =>
      rw [List.reduceOption_cons_of_some] at hnodup hlive ⊢
      obtain ⟨hp, hnodup⟩ := List.nodup_cons.mp hnodup
      refine wp_free (hlive p List.mem_cons_self) fun tr => wp_mono (ih hnodup ?_) ?_
      · intro q hq
        have hne : q ≠ p := by
          rintro rfl
          exact hp hq
        exact Finset.mem_erase.mpr ⟨hne, hlive q (List.mem_cons_of_mem p hq)⟩
      · rintro tr' o s' ⟨rfl, rfl⟩
        refine ⟨rfl, ?_⟩
        simp [without, Finset.sdiff_insert, Finset.erase_sdiff_comm]

end Heap

end Effects
