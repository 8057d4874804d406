import Mathlib

/-!
# Byte buffers

Little-endian words as bytes, buffers that another party fills, and writes into the middle of a buffer. `overwrite_getElem?` is
the frame fact every statement about memory rests on: a write that fits changes the bytes it covers and no others. `AgreeOutside` is
what a series of such writes leaves.
-/

namespace Bytes

/-- The low `w` bytes of a number, least significant first. -/
def leBytes : Nat → Nat → List UInt8
  | 0, _ => []
  | w + 1, n => UInt8.ofNat n :: leBytes w (n / 256)

/-- The number whose bytes, least significant first, are given. -/
def ofLeBytes : List UInt8 → Nat
  | [] => 0
  | b :: bs => b.toNat + 256 * ofLeBytes bs

@[simp] theorem length_leBytes (w n : Nat) : (leBytes w n).length = w := by
  induction w generalizing n with
  | zero => rfl
  | succ w ih => simp [leBytes, ih]

/-- Reading back the bytes of a number gives the number, reduced to the width written. -/
theorem ofLeBytes_leBytes (w n : Nat) : ofLeBytes (leBytes w n) = n % 256 ^ w := by
  induction w generalizing n with
  | zero => simp [leBytes, ofLeBytes, Nat.mod_one]
  | succ w ih =>
    have hb : (UInt8.ofNat n).toNat = n % 256 := UInt8.toNat_ofNat'
    rw [leBytes, ofLeBytes, ih, hb, Nat.pow_succ', Nat.mod_mul]

/-- Writing back the number of some bytes gives the bytes. -/
theorem leBytes_ofLeBytes (bytes : List UInt8) : leBytes bytes.length (ofLeBytes bytes) = bytes := by
  induction bytes with
  | nil => rfl
  | cons b bs ih =>
    have hb := b.toNat_lt
    have hdiv : (b.toNat + 256 * ofLeBytes bs) / 256 = ofLeBytes bs := by omega
    have hlow : UInt8.ofNat (b.toNat + 256 * ofLeBytes bs) = b := by
      refine UInt8.toNat_inj.mp ?_
      rw [UInt8.toNat_ofNat']
      omega
    rw [List.length_cons, ofLeBytes, leBytes, hdiv, hlow, ih]

theorem ofLeBytes_lt (bytes : List UInt8) : ofLeBytes bytes < 256 ^ bytes.length := by
  have h := ofLeBytes_leBytes bytes.length (ofLeBytes bytes)
  rw [leBytes_ofLeBytes] at h
  rw [h]
  exact Nat.mod_lt _ (Nat.pow_pos (by decide))

/-- A buffer of `n` zero bytes after another party has copied `data` into it: as much of `data` as fits. -/
def fill (n : Nat) (data : List UInt8) : List UInt8 :=
  data.take n ++ List.replicate (n - data.length) 0

@[simp] theorem length_fill (n : Nat) (data : List UInt8) : (fill n data).length = n := by
  simp only [fill, List.length_append, List.length_take, List.length_replicate]
  omega

/-- A buffer filled with as much data as it has room for is that data. -/
theorem fill_of_length {n : Nat} {data : List UInt8} (h : data.length = n) : fill n data = data := by
  simp [fill, h, List.take_of_length_le (Nat.le_of_eq h)]

/-- A buffer with `bytes` written over it from `start` on. -/
def overwrite (data : List UInt8) (start : Nat) (bytes : List UInt8) : List UInt8 :=
  data.take start ++ bytes ++ data.drop (start + bytes.length)

section
variable {data bytes : List UInt8} {start : Nat}

/-- A write that fits keeps the length. -/
theorem length_overwrite (h : start + bytes.length ≤ data.length) : (overwrite data start bytes).length = data.length := by
  simp only [overwrite, List.length_append, List.length_take, List.length_drop]
  omega

/-- A write that fits changes the bytes it covers and no others. -/
theorem overwrite_getElem? (h : start + bytes.length ≤ data.length) (i : Nat) :
    (overwrite data start bytes)[i]? = if start ≤ i ∧ i < start + bytes.length then bytes[i - start]? else data[i]? := by
  unfold overwrite
  have hlen : (data.take start).length = start := by rw [List.length_take]; omega
  by_cases h1 : i < start
  · rw [List.append_assoc, List.getElem?_append_left (by omega), List.getElem?_take_of_lt h1, if_neg (by omega)]
  · by_cases h2 : i < start + bytes.length
    · rw [List.append_assoc, List.getElem?_append_right (by omega), hlen,
        List.getElem?_append_left (by omega), if_pos (by omega)]
    · rw [List.getElem?_append_right (by rw [List.length_append]; omega), List.length_append, hlen,
        List.getElem?_drop, if_neg (by omega)]
      congr 1
      omega

/-- What was written is there, ... -/
theorem drop_take_overwrite (h : start + bytes.length ≤ data.length) :
    ((overwrite data start bytes).take (start + bytes.length)).drop start = bytes := by
  have hlen : (data.take start).length = start := by
    rw [List.length_take]
    omega
  have hend : (data.take start ++ bytes).length = start + bytes.length := by rw [List.length_append, hlen]
  unfold overwrite
  rw [← hend, List.take_left, List.drop_left' hlen]

/-- ... and a range that the write has no byte of is as before. -/
theorem drop_take_overwrite_of_apart (h : start + bytes.length ≤ data.length) {first n : Nat}
    (hapart : first + n ≤ start ∨ start + bytes.length ≤ first) :
    ((overwrite data start bytes).take (first + n)).drop first = (data.take (first + n)).drop first := by
  refine List.ext_getElem? fun i => ?_
  rw [List.getElem?_drop, List.getElem?_drop, List.getElem?_take, List.getElem?_take, overwrite_getElem? h]
  by_cases hi : first + i < first + n
  · rw [if_pos hi, if_pos hi, if_neg (by omega)]
  · rw [if_neg hi, if_neg hi]

/-- A write of as many bytes as there are replaces them all. -/
theorem overwrite_all (h : bytes.length = data.length) : overwrite data 0 bytes = bytes := by
  simp [overwrite, h]

end

/-- Writing the bytes one cell at a time. -/
def setCells (data : List UInt8) (start : Nat) : List UInt8 → List UInt8
  | [] => data
  | b :: bs => setCells (data.set start b) (start + 1) bs

/-- Writing cell by cell is writing the block, when it fits. -/
theorem setCells_eq_overwrite {data bytes : List UInt8} {start : Nat} (h : start + bytes.length ≤ data.length) :
    setCells data start bytes = overwrite data start bytes := by
  induction bytes generalizing data start with
  | nil => simp [setCells, overwrite, List.take_append_drop]
  | cons b bs ih =>
    simp only [List.length_cons] at h
    rw [setCells, ih (by rw [List.length_set]; omega)]
    have hset : (data.set start b).take (start + 1) = data.take start ++ [b] := by
      rw [List.take_set, List.take_add_one, List.set_append_right _ _ (List.length_take_le _ _),
        List.length_take]
      obtain ⟨x, hx⟩ : ∃ x, data[start]? = some x := ⟨_, List.getElem?_eq_getElem (by omega)⟩
      simp [hx, Nat.min_eq_left (by omega : start ≤ data.length)]
    have hdrop : (data.set start b).drop (start + 1 + bs.length) = data.drop (start + (b :: bs).length) := by
      rw [List.drop_set_of_lt (by omega)]
      congr 1
      simp only [List.length_cons]
      omega
    unfold overwrite
    rw [hset, hdrop]
    simp

/-! ## Regions -/

/-- A range of a buffer. -/
structure Region where
  start : Nat
  len : Nat
  deriving DecidableEq, Repr

/-- The index is in the region. -/
def Region.Has (r : Region) (i : Nat) : Prop := r.start ≤ i ∧ i < r.start + r.len

instance (r : Region) (i : Nat) : Decidable (r.Has i) := inferInstanceAs (Decidable (_ ∧ _))

/-- Two buffers of one length with the same bytes outside the regions. -/
structure AgreeOutside (out : List Region) (before after : List UInt8) : Prop where
  length : after.length = before.length
  byte : ∀ i, (∀ r ∈ out, ¬r.Has i) → after[i]? = before[i]?

section
variable {out : List Region} {before data bytes : List UInt8} {start : Nat}

theorem AgreeOutside.refl (out : List Region) (data : List UInt8) : AgreeOutside out data data := ⟨rfl, fun _ _ => rfl⟩

/-- One more write, from the start of a region on and no longer than it. -/
theorem AgreeOutside.overwrite (h : AgreeOutside out before data) (hfits : start + bytes.length ≤ data.length) {r : Region}
    (hr : r ∈ out) (hstart : r.start = start) (hlen : bytes.length ≤ r.len) :
    AgreeOutside out before (overwrite data start bytes) := by
  refine ⟨(length_overwrite hfits).trans h.length, ?_⟩
  intro i hi
  have hout : ¬(start ≤ i ∧ i < start + bytes.length) := by
    have hnot := hi r hr
    unfold Region.Has at hnot
    omega
  rw [overwrite_getElem? hfits, if_neg hout]
  exact h.byte i hi

end

end Bytes
