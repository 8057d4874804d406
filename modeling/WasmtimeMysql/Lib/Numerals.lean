import Mathlib

/-!
# Numerals of a fixed width

The last digits of a number in a base, the most significant one first, each written as a letter. Numbers below the power of the base have
different numerals (`numeral_inj`), and a loop that divides by the base and writes from the end of a buffer leaves the numeral there
(`foldl_set_numeral`).
-/

namespace Numerals

variable {α : Type} {b : Nat} {letter : Nat → α}

/-- The last `n` digits of `v`. -/
def numeral (b : Nat) (letter : Nat → α) : Nat → Nat → List α
  | 0, _ => []
  | n + 1, v => letter (v / b ^ n % b) :: numeral b letter n v

@[simp] theorem length_numeral (n v : Nat) : (numeral b letter n v).length = n := by
  induction n with
  | zero => rfl
  | succ n ih => rw [numeral, List.length_cons, ih]

/-- All letters of a numeral are those of digits. -/
theorem exists_digit_of_mem_numeral (hb : 0 < b) {n v : Nat} {x : α} (hx : x ∈ numeral b letter n v) : ∃ d < b, x = letter d := by
  induction n with
  | zero => cases hx
  | succ n ih =>
    rcases List.mem_cons.mp hx with rfl | hx
    · exact ⟨_, Nat.mod_lt _ hb, rfl⟩
    · exact ih hx

/-- A numeral determines the number up to the power of the base. -/
theorem numeral_inj_mod (hb : 0 < b) (hletter : ∀ d < b, ∀ e < b, letter d = letter e → d = e) {n v w : Nat}
    (h : numeral b letter n v = numeral b letter n w) : v % b ^ n = w % b ^ n := by
  induction n with
  | zero => rw [Nat.pow_zero, Nat.mod_one, Nat.mod_one]
  | succ n ih =>
    obtain ⟨hhead, htail⟩ := List.cons.inj h
    have hdigit := hletter _ (Nat.mod_lt _ hb) _ (Nat.mod_lt _ hb) hhead
    rw [Nat.mod_pow_succ, Nat.mod_pow_succ, ih htail, hdigit]

theorem numeral_inj (hb : 0 < b) (hletter : ∀ d < b, ∀ e < b, letter d = letter e → d = e) {n v w : Nat} (hv : v < b ^ n)
    (hw : w < b ^ n) (h : numeral b letter n v = numeral b letter n w) : v = w := by
  have hmod := numeral_inj_mod hb hletter h
  rw [Nat.mod_eq_of_lt hv, Nat.mod_eq_of_lt hw] at hmod
  exact hmod

/-- The last cell of a buffer, written. -/
theorem set_append_last {front back : List α} {i : Nat} {x : α} (hi : front.length + back.length - 1 = i) (hback : back ≠ []) :
    (front ++ back).set i x = front ++ back.dropLast ++ [x] := by
  have hpos := List.length_pos_iff.mpr hback
  rw [List.set_append_right _ _ (by omega), List.append_assoc, List.append_cancel_left_eq,
    List.set_eq_take_append_cons_drop, if_pos (by omega), List.drop_eq_nil_of_le (by omega), List.dropLast_eq_take]
  congr 2
  omega

/-- Writing the digits from the last cell on, the least significant one first. -/
theorem foldl_set_numeral (front back : List α) (v : Nat) {n : Nat} (hn : n ≤ back.length) :
    (List.range n).foldl (fun s i => (s.1.set ((front ++ back).length - 1 - i) (letter (s.2 % b)), s.2 / b)) (front ++ back, v) =
      (front ++ back.take (back.length - n) ++ numeral b letter n v, v / b ^ n) := by
  induction n with
  | zero => simp [numeral]
  | succ n ih =>
    rw [List.range_succ, List.foldl_append, ih (by omega)]
    have hne : back.take (back.length - n) ≠ [] := by
      rw [← List.length_pos_iff, List.length_take]
      omega
    have hlast : (back.take (back.length - n)).dropLast = back.take (back.length - (n + 1)) := by
      rw [List.dropLast_eq_take, List.take_take, List.length_take]
      congr 1
      omega
    have hlength : front.length + (back.take (back.length - n)).length - 1 = (front ++ back).length - 1 - n := by
      rw [List.length_take, List.length_append]
      omega
    have hlt : (front ++ back).length - 1 - n < (front ++ back.take (back.length - n)).length := by
      rw [List.length_append, List.length_append, List.length_take]
      omega
    have hset : (front ++ back.take (back.length - n) ++ numeral b letter n v).set
        ((front ++ back).length - 1 - n) (letter (v / b ^ n % b)) =
        front ++ back.take (back.length - (n + 1)) ++ numeral b letter (n + 1) v := by
      rw [List.set_append_left _ _ hlt, set_append_last hlength hne, hlast, numeral, List.append_assoc, List.singleton_append]
    rw [List.foldl_cons, List.foldl_nil, hset, Nat.div_div_eq_div_mul, Nat.pow_succ]

end Numerals
