import WasmtimeMysql.HostFiles

/-!
# The names of the locks on Windows

`windows_lock_name` names the lock of a file by a hash of 64 bits of its path, so there are paths with one name. But a round of the hash loses
nothing, and its multiplication carries a difference in the low sixteen bits out of them: paths of one length that differ within two neighbouring
units of UTF-16, such as those of numbered files, never share a lock (`lock_names_differ`).
-/

namespace WasmtimeMysql

/-- The hash of the units of a path. -/
def lockHash (units : List UInt16) : UInt64 := units.foldl Windows.hashUnit 0xcbf29ce484222325

namespace LockNamesAux

open Windows

/-! ### The text of a hash -/

/-- The value of a digit in base sixteen, and of some digits. -/
def hexDigitValue (unit : UInt16) : Nat := if unit.toNat < 58 then unit.toNat - 48 else unit.toNat - 87

def hexValue (units : List UInt16) : Nat := units.foldl (fun n unit => 16 * n + hexDigitValue unit) 0

theorem encodeUtf16_append (s t : Str) : encodeUtf16 (s ++ t) = encodeUtf16 s ++ encodeUtf16 t := List.flatMap_append ..

theorem hexValue_digitChar {d : Nat} (hd : d < 16) (units : List UInt16) :
    hexValue (units ++ encodeUtf16 [d.digitChar]) = 16 * hexValue units + d := by
  unfold hexValue
  rw [List.foldl_append]
  interval_cases d <;> rfl

/-- The digits of a number give it back. -/
theorem hexValue_toDigits (n : Nat) : hexValue (encodeUtf16 (Nat.toDigits 16 n)) = n := by
  induction n using Nat.strongRecOn with
  | ind n ih =>
    by_cases hn : n < 16
    · rw [Nat.toDigits_of_lt_base hn, ← List.nil_append (encodeUtf16 _), hexValue_digitChar hn]
      simp [hexValue]
    · rw [Nat.toDigits_of_base_le (by decide) (Nat.le_of_not_lt hn), encodeUtf16_append, hexValue_digitChar (Nat.mod_lt n (by decide)),
        ih _ (by omega), Nat.div_add_mod]

theorem hexValue_zeros (k : Nat) (digits : Str) : hexValue (encodeUtf16 (List.replicate k '0' ++ digits)) = hexValue (encodeUtf16 digits) := by
  induction k with
  | zero => rfl
  | succ k ih =>
    rw [← ih]
    rfl

/-- The text of a hash gives it back. -/
theorem hexValue_hex16 (hash : UInt64) : hexValue (encodeUtf16 (hex16 hash)) = hash.toNat :=
  (hexValue_zeros _ _).trans (hexValue_toDigits _)

/-! ### A round of the hash -/

/-- The multiplication by the prime carries a difference in the low sixteen bits out of them. -/
theorem eq_of_mul_prime {A B : Nat} (hhigh : A / 2 ^ 16 = B / 2 ^ 16)
    (hprod : A * 0x100000001b3 % 2 ^ 64 / 2 ^ 16 = B * 0x100000001b3 % 2 ^ 64 / 2 ^ 16) : A = B := by
  by_contra hne
  rcases Nat.lt_trichotomy (A * 0x100000001b3 / 2 ^ 64) (B * 0x100000001b3 / 2 ^ 64) with hquot | hquot | hquot <;>
    rcases Nat.lt_or_gt_of_ne hne with hlt | hlt <;> omega

/-- It loses nothing. -/
theorem mul_prime_inj {g h : UInt64} (heq : g * 0x100000001b3 = h * 0x100000001b3) : g = h := by
  have hinv : (0x100000001b3 : UInt64) * 0xce965057aff6957b = 1 := by decide
  calc
    g = g * 0x100000001b3 * 0xce965057aff6957b := by rw [UInt64.mul_assoc, hinv, UInt64.mul_one]
    _ = h * 0x100000001b3 * 0xce965057aff6957b := by rw [heq]
    _ = h := by rw [UInt64.mul_assoc, hinv, UInt64.mul_one]

/-- A unit changes the low sixteen bits only. -/
theorem xor_unit_high (g : UInt64) (u : UInt16) : (g ^^^ u.toUInt64).toNat / 2 ^ 16 = g.toNat / 2 ^ 16 := by
  have hunit : u.toUInt64.toNat >>> 16 = 0 := by
    have hlt := u.toNat_lt
    rw [Nat.shiftRight_eq_div_pow, UInt16.toNat_toUInt64]
    omega
  rw [UInt64.toNat_xor, ← Nat.shiftRight_eq_div_pow, ← Nat.shiftRight_eq_div_pow, Nat.shiftRight_xor_distrib, hunit, Nat.xor_zero]

theorem xor_unit_inj {g : UInt64} {u v : UInt16} (h : g ^^^ u.toUInt64 = g ^^^ v.toUInt64) : u = v :=
  UInt16.toUInt64_inj.mp ((UInt64.xor_right_inj g).mp h)

/-- A round with one unit loses nothing of the hash, ... -/
theorem hashUnit_inj_left {g h : UInt64} {u : UInt16} (heq : hashUnit g u = hashUnit h u) : g = h :=
  (UInt64.xor_left_inj u.toUInt64).mp (mul_prime_inj heq)

/-- ... so what two texts end with does not matter. -/
theorem foldl_hashUnit_inj {g h : UInt64} {units : List UInt16} (heq : units.foldl hashUnit g = units.foldl hashUnit h) : g = h := by
  induction units generalizing g h with
  | nil => exact heq
  | cons u units ih => exact hashUnit_inj_left (ih heq)

/-- Two units that lead to the same hash are the same. -/
theorem two_units {g : UInt64} {u₁ u₂ v₁ v₂ : UInt16} (heq : hashUnit (hashUnit g u₁) u₂ = hashUnit (hashUnit g v₁) v₂) : u₁ = v₁ ∧ u₂ = v₂ := by
  have hxor := mul_prime_inj heq
  have hprod : (hashUnit g u₁).toNat / 2 ^ 16 = (hashUnit g v₁).toNat / 2 ^ 16 := by
    rw [← xor_unit_high _ u₂, hxor, xor_unit_high]
  unfold hashUnit at hprod
  rw [UInt64.toNat_mul, UInt64.toNat_mul] at hprod
  have hfirst := eq_of_mul_prime ((xor_unit_high g u₁).trans (xor_unit_high g v₁).symm) hprod
  obtain rfl := xor_unit_inj (UInt64.toNat_inj.mp hfirst)
  exact ⟨rfl, xor_unit_inj hxor⟩

/-- Texts that differ in two neighbouring units have different hashes. -/
theorem lockHash_inj {a x y b : List UInt16} (hlen : x.length = y.length) (hshort : x.length ≤ 2)
    (heq : lockHash (a ++ x ++ b) = lockHash (a ++ y ++ b)) : x = y := by
  unfold lockHash at heq
  simp only [List.foldl_append] at heq
  have hmiddle := foldl_hashUnit_inj heq
  rcases x with _ | ⟨u₁, _ | ⟨u₂, _ | ⟨u₃, x⟩⟩⟩
  · exact (List.length_eq_zero_iff.mp hlen.symm).symm
  · obtain ⟨v₁, rfl⟩ := List.length_eq_one_iff.mp hlen.symm
    exact congrArg (· :: []) (xor_unit_inj (mul_prime_inj hmiddle))
  · obtain ⟨v₁, v₂, rfl⟩ := List.length_eq_two.mp hlen.symm
    obtain ⟨rfl, rfl⟩ := two_units hmiddle
    rfl
  · simp only [List.length_cons] at hshort
    omega

end LockNamesAux

open LockNamesAux in
/-- Two paths whose texts, in upper case, differ within two neighbouring units of UTF-16 have locks of different names. -/
theorem lock_names_differ (toUppercase : Str → Str) (p q : WinParts) (a x y b : List UInt16)
    (hp : Windows.encodeUtf16 (toUppercase (Windows.pathText p)) = a ++ x ++ b)
    (hq : Windows.encodeUtf16 (toUppercase (Windows.pathText q)) = a ++ y ++ b) (hlen : x.length = y.length) (hshort : x.length ≤ 2)
    (hne : x ≠ y) : Windows.windowsLockName toUppercase p ≠ Windows.windowsLockName toUppercase q := by
  intro heq
  unfold Windows.windowsLockName at heq
  rw [hp, hq] at heq
  simp only [encodeUtf16_append] at heq
  have htext := List.append_cancel_left (List.append_cancel_right heq)
  have hhash : lockHash (a ++ x ++ b) = lockHash (a ++ y ++ b) := by
    rw [← UInt64.toNat_inj, ← hexValue_hex16, ← hexValue_hex16]
    exact congrArg hexValue htext
  exact hne (lockHash_inj hlen hshort hhash)

namespace LockNamesAux

/-- A data file of InnoDB, its name in upper case. -/
def undoFile (number : Char) : WinParts where
  drive := some (.verbatimDisk 'C')
  root := true
  comps := [.normal "MYSQL".toList, .normal ("UNDO_00".toList ++ [number])]

end LockNamesAux

open LockNamesAux in
/-- The locks of the undo files. -/
theorem lock_names_differ_undo : Windows.windowsLockName id (undoFile '1') ≠ Windows.windowsLockName id (undoFile '2') :=
  lock_names_differ id (undoFile '1') (undoFile '2') (Windows.encodeUtf16 "\\\\?\\C:\\MYSQL\\UNDO_00".toList) [49] [50] [] (by decide) (by decide) rfl
    (by decide) (by decide)

end WasmtimeMysql
