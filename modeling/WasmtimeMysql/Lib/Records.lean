import WasmtimeMysql.Lib.Bytes

/-!
# Records in a buffer

A buffer with records of one width one after another from some index on. A write within one record leaves the others alone, and a loop that
writes one field of each record changes that field and nothing else.
-/

namespace Bytes

/-- Record `i` of the records of width `w` that begin at `start`. -/
def record (w start i : Nat) (data : List UInt8) : List UInt8 := (data.drop (start + w * i)).take w

/-- The first `n` records. -/
def records (w start n : Nat) (data : List UInt8) : List (List UInt8) := (List.range n).map fun i => record w start i data

variable {w start i j n off : Nat} {data bytes : List UInt8}

theorem record_getElem? (p : Nat) : (record w start i data)[p]? = if p < w then data[start + w * i + p]? else none := by
  unfold record
  split
  · rename_i hp
    rw [List.getElem?_take_of_lt hp, List.getElem?_drop]
  · rename_i hp
    rw [List.getElem?_take_eq_none (by omega)]

theorem length_record (h : start + w * (i + 1) ≤ data.length) : (record w start i data).length = w := by
  rw [Nat.mul_succ] at h
  rw [record, List.length_take, List.length_drop]
  omega

@[simp] theorem length_records : (records w start n data).length = n := by simp [records]

/-- The records after the first. -/
theorem records_succ : records w start (n + 1) data = record w start 0 data :: records w (start + w) n data := by
  rw [records, List.range_succ_eq_map, List.map_cons, List.map_map]
  refine congrArg _ (List.map_congr_left fun i _ => ?_)
  simp only [record, Function.comp_apply, Nat.succ_eq_add_one, Nat.mul_succ]
  congr 2
  omega

theorem records_drop (d : Nat) : records w start n (data.drop d) = records w (d + start) n data := by
  refine List.map_congr_left fun i _ => ?_
  rw [record, record, List.drop_drop, Nat.add_assoc]

/-- The records of a part of the buffer are records of the buffer. -/
theorem records_drop_take : records w 0 n ((data.take (start + w * n)).drop start) = records w start n data := by
  refine List.map_congr_left fun i hi => ?_
  have hin : w * (i + 1) ≤ w * n := Nat.mul_le_mul_left w (List.mem_range.mp hi)
  rw [Nat.mul_succ] at hin
  refine List.ext_getElem? fun p => ?_
  rw [record_getElem?, record_getElem?]
  split
  · rw [List.getElem?_drop, List.getElem?_take_of_lt (by omega)]
    congr 1
    omega
  · rfl

/-! ## Fields -/

/-- A write within a record is a write to that record. -/
theorem record_overwrite_self (hin : start + w * (i + 1) ≤ data.length) (hoff : off + bytes.length ≤ w) :
    record w start i (overwrite data (start + w * i + off) bytes) = overwrite (record w start i data) off bytes := by
  have hlen := length_record hin
  rw [Nat.mul_succ] at hin
  refine List.ext_getElem? fun p => ?_
  rw [record_getElem?, overwrite_getElem? (by omega), overwrite_getElem? (by omega), record_getElem?]
  by_cases hp : p < w
  · rw [if_pos hp, if_pos hp]
    by_cases hfield : off ≤ p ∧ p < off + bytes.length
    · rw [if_pos hfield, if_pos (by omega)]
      congr 1
      omega
    · rw [if_neg hfield, if_neg (by omega)]
  · rw [if_neg hp, if_neg hp, if_neg (by omega)]

/-- ... and leaves the other records alone. -/
theorem record_overwrite_of_ne (hne : i ≠ j) (hin : start + w * (i + 1) ≤ data.length) (hoff : off + bytes.length ≤ w) :
    record w start j (overwrite data (start + w * i + off) bytes) = record w start j data := by
  have hapart : w * (i + 1) ≤ w * j ∨ w * (j + 1) ≤ w * i := by
    rcases Nat.lt_or_gt_of_ne hne with hlt | hgt
    · exact .inl (Nat.mul_le_mul_left w hlt)
    · exact .inr (Nat.mul_le_mul_left w hgt)
  rw [Nat.mul_succ] at hin
  rw [Nat.mul_succ, Nat.mul_succ] at hapart
  refine List.ext_getElem? fun p => ?_
  rw [record_getElem?, record_getElem?]
  split
  · rw [overwrite_getElem? (by omega), if_neg (by omega)]
  · rfl

/-- The field at `off` of each record from `i` on is written in turn. -/
def setFields (w start off : Nat) : Nat → List (List UInt8) → List UInt8 → List UInt8
  | _, [], data => data
  | i, bytes :: rest, data => setFields w start off (i + 1) rest (overwrite data (start + w * i + off) bytes)

section
variable {fields : List (List UInt8)}

/-- Each record has its field written, and the records outside the range are as they were. -/
theorem record_setFields (hoff : ∀ field ∈ fields, off + field.length ≤ w) (hin : start + w * (i + fields.length) ≤ data.length) (j : Nat) :
    record w start j (setFields w start off i fields data) =
      if i ≤ j then (fields[j - i]?).elim (record w start j data) (overwrite (record w start j data) off) else record w start j data := by
  induction fields generalizing i data with
  | nil =>
    rw [setFields]
    split <;> rfl
  | cons field fields ih =>
    rw [List.forall_mem_cons] at hoff
    rw [List.length_cons, Nat.add_comm fields.length, ← Nat.add_assoc] at hin
    have hself : start + w * (i + 1) ≤ data.length := by
      have := Nat.mul_le_mul_left w (Nat.le_add_right (i + 1) fields.length)
      omega
    have hfits : start + w * i + off + field.length ≤ data.length := by
      rw [Nat.mul_succ] at hself
      omega
    rw [setFields, ih hoff.2 (by rwa [length_overwrite hfits])]
    rcases Nat.lt_trichotomy j i with hlt | heq | hgt
    · rw [if_neg (by omega), if_neg (by omega), record_overwrite_of_ne (by omega) hself hoff.1]
    · subst heq
      rw [if_neg (by omega), if_pos (Nat.le_refl j), Nat.sub_self, record_overwrite_self hself hoff.1]
      rfl
    · obtain ⟨d, rfl⟩ : ∃ d, j = i + 1 + d := ⟨j - (i + 1), by omega⟩
      rw [if_pos (by omega), if_pos (by omega), record_overwrite_of_ne (by omega) hself hoff.1, Nat.add_sub_cancel_left,
        show i + 1 + d - i = d + 1 by omega, List.getElem?_cons_succ]

end

end Bytes
