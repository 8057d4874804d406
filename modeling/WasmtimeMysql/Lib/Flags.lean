import Mathlib.Tactic.Common

/-!
# Flag words

A flag word is taken apart by masks: `x &&& m` are the flags of the mask that are set, `x &&& ~~~m` is the word without them.
-/

namespace Flags

variable {x m k : Int32}

theorem and_or (x m k : Int32) : x &&& (m ||| k) = (x &&& m) ||| (x &&& k) := Int32.toBitVec_inj.mp BitVec.and_or_distrib_left

theorem not_or (m k : Int32) : ~~~(m ||| k) = ~~~m &&& ~~~k := Int32.toBitVec_inj.mp BitVec.not_or

/-- A flag of two masks is set when it is set of one. -/
theorem and_or_bne (x m k : Int32) : (x &&& (m ||| k) != 0) = (x &&& m != 0 || x &&& k != 0) := by
  have hiff : x &&& (m ||| k) = 0 ↔ x &&& m = 0 ∧ x &&& k = 0 := by rw [and_or, Int32.or_eq_zero_iff]
  rw [Bool.eq_iff_iff, Bool.or_eq_true, bne_iff_ne, bne_iff_ne, bne_iff_ne, Ne, hiff]
  exact not_and_or

/-- The flags of a smaller mask are those of the word. -/
theorem and_and_of_subset (h : m &&& k = k) : (x &&& m) &&& k = x &&& k := by rw [Int32.and_assoc, h]

/-- Taking away other flags leaves those of a mask. -/
theorem clear_and_of_disjoint (h : k &&& m = 0) : (x &&& ~~~k) &&& m = x &&& m := by
  have hm : ~~~k &&& m = m := by
    have hsplit : (k ||| ~~~k) &&& m = (k &&& m) ||| (~~~k &&& m) := Int32.toBitVec_inj.mp BitVec.and_or_distrib_right
    rw [Int32.or_not_self, Int32.neg_one_and, h, Int32.zero_or] at hsplit
    exact hsplit.symm
  rw [Int32.and_assoc, hm]

/-- A word without the flags of a mask is left as it is. -/
theorem clear_of_and_eq_zero (h : x &&& m = 0) : x &&& ~~~m = x := by
  have hsplit := and_or x m (~~~m)
  rw [Int32.or_not_self, Int32.and_neg_one, h, Int32.zero_or] at hsplit
  exact hsplit.symm

/-- Two masks are taken away one after the other. -/
theorem clear_or (x m k : Int32) : x &&& ~~~(m ||| k) = (x &&& ~~~k) &&& ~~~m := by
  rw [not_or, Int32.and_assoc, Int32.and_comm (~~~k)]

end Flags
