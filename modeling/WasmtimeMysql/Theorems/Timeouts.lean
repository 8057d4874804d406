import Mathlib.Data.Rat.Floor
import WasmtimeMysql.HostSocketsWindows

/-!
# Socket timeouts on Windows

WinSock takes a timeout in milliseconds, as a `u32`, where the guest has a `timeval` of seconds and microseconds. The translation rounds
up and saturates, and it does so over the exact value: no step of the `i64` arithmetic wraps, whatever the seconds are
(`guest_timeout`). So a timeout that the guest sets never becomes 0, which WinSock takes for none.
-/

namespace WasmtimeMysql.Windows

open Bytes

/-- The seconds of a guest timeval. -/
def timevalSeconds (guest : List UInt8) : Int := i64FromLeBytes (guest.take 8)

/-- Its microseconds. -/
def timevalMicros (guest : List UInt8) : Int := i64FromLeBytes ((guest.take 16).drop 8)

/-- The timeval with its microseconds. -/
def timevalTotal (guest : List UInt8) : Int := timevalSeconds guest * 10 ^ 6 + timevalMicros guest

/-- The milliseconds of a number of microseconds, rounded up, as far as a `u32` holds them. -/
def timeoutMillis (micros : Int) : Int := max 0 (min (2 ^ 32 - 1) ⌈(micros : ℚ) / 1000⌉)

namespace TimeoutsAux

variable {micros micros' s u : Int}

theorem timeoutMillis_eq : timeoutMillis micros = max 0 (min (2 ^ 32 - 1) (-(-micros / 1000))) := by
  unfold timeoutMillis
  rw [show (1000 : ℚ) = ((1000 : ℕ) : ℚ) by norm_num, Rat.ceil_intCast_div_natCast]
  rfl

theorem timeoutMillis_mono (h : micros ≤ micros') : timeoutMillis micros ≤ timeoutMillis micros' := by
  rw [timeoutMillis_eq, timeoutMillis_eq]
  omega

theorem timeoutMillis_pos (h : 0 < micros) : 0 < timeoutMillis micros := by
  rw [timeoutMillis_eq]
  omega

theorem timeoutMillis_range (micros : Int) : 0 ≤ timeoutMillis micros ∧ timeoutMillis micros < 2 ^ 32 := by
  rw [timeoutMillis_eq]
  omega

/-- Saturating at each step is clamping the exact value at the end. -/
theorem saturating_millis (hs : -2 ^ 63 ≤ s ∧ s < 2 ^ 63) (hu : 0 ≤ u ∧ u < 10 ^ 6) :
    max 0 (min (satI64 (satI64 (s * 1000) + satI64 (u + 999) / 1000)) (2 ^ 32 - 1)) = timeoutMillis (s * 10 ^ 6 + u) := by
  have hmicros : satI64 (u + 999) = u + 999 := by
    unfold satI64
    omega
  have hceil : -(-(s * 10 ^ 6 + u) / 1000) = s * 1000 + (u + 999) / 1000 := by omega
  rw [timeoutMillis_eq, hmicros, hceil]
  unfold satI64
  omega

theorem i64FromLeBytes_range (bytes : List UInt8) : -2 ^ 63 ≤ i64FromLeBytes bytes ∧ i64FromLeBytes bytes < 2 ^ 63 :=
  ⟨Int64.le_toInt _, Int64.toInt_lt _⟩

/-- A number that an `i64` holds is read back. -/
theorem i64FromLeBytes_leBytes {n : Nat} (h : n < 2 ^ 63) : i64FromLeBytes (leBytes 8 n) = n := by
  unfold i64FromLeBytes
  rw [ofLeBytes_leBytes, Nat.mod_eq_of_lt (by omega)]
  exact Int64.toInt_ofNat_of_lt h

/-- What the import hands to WinSock. -/
theorem guestTimeoutToWindows_eq {guest : List UInt8} (hlen : 16 ≤ guest.length)
    (hu : 0 ≤ timevalMicros guest ∧ timevalMicros guest < 10 ^ 6) :
    guestTimeoutToWindows guest = leBytes 4 (timeoutMillis (timevalTotal guest)).toNat := by
  unfold guestTimeoutToWindows
  rw [if_neg (Nat.not_lt.mpr hlen)]
  exact congrArg (fun millis => leBytes 4 millis.toNat) (saturating_millis (i64FromLeBytes_range _) hu)

theorem ofLeBytes_timeout {guest : List UInt8} (hlen : 16 ≤ guest.length) (hu : 0 ≤ timevalMicros guest ∧ timevalMicros guest < 10 ^ 6) :
    (ofLeBytes (guestTimeoutToWindows guest) : Int) = timeoutMillis (timevalTotal guest) := by
  obtain ⟨hlow, hhigh⟩ := timeoutMillis_range (timevalTotal guest)
  rw [guestTimeoutToWindows_eq hlen hu, ofLeBytes_leBytes, Nat.mod_eq_of_lt (by omega)]
  exact Int.toNat_of_nonneg hlow

/-- The timeval that `getsockopt` makes of milliseconds. -/
theorem timeval_windowsTimeoutToGuest {m n : Nat} (hm : m < 2 ^ 32) (hn : 16 ≤ n) :
    (windowsTimeoutToGuest (leBytes 4 m) n).length = 16 ∧ timevalSeconds (windowsTimeoutToGuest (leBytes 4 m) n) = (m / 1000 : Nat) ∧
      timevalMicros (windowsTimeoutToGuest (leBytes 4 m) n) = (m % 1000 * 1000 : Nat) := by
  have hbytes : windowsTimeoutToGuest (leBytes 4 m) n = leBytes 8 (m / 1000) ++ leBytes 8 (m % 1000 * 1000) := by
    unfold windowsTimeoutToGuest
    rw [if_neg (by rw [length_leBytes]; omega), List.take_of_length_le (by rw [length_leBytes]), ofLeBytes_leBytes,
      Nat.mod_eq_of_lt (by omega)]
  rw [hbytes]
  refine ⟨by rw [List.length_append, length_leBytes, length_leBytes], ?_, ?_⟩
  · unfold timevalSeconds
    rw [List.take_left' (length_leBytes 8 _), i64FromLeBytes_leBytes (by omega)]
  · unfold timevalMicros
    rw [List.take_of_length_le (by rw [List.length_append, length_leBytes, length_leBytes]), List.drop_left' (length_leBytes 8 _),
      i64FromLeBytes_leBytes (by omega)]

end TimeoutsAux

open TimeoutsAux in
/-- A guest timeout becomes its milliseconds, rounded up and clamped over the exact value: a positive one never becomes 0, a longer one
never a shorter one, and what `getsockopt` makes of milliseconds is turned back into them. -/
theorem guest_timeout :
    (∀ guest, guest.length = 16 → 0 ≤ timevalMicros guest → timevalMicros guest < 10 ^ 6 →
      guestTimeoutToWindows guest = leBytes 4 (timeoutMillis (timevalTotal guest)).toNat ∧
      (0 < timevalTotal guest → ofLeBytes (guestTimeoutToWindows guest) ≠ 0) ∧
      ∀ guest', guest'.length = 16 → 0 ≤ timevalMicros guest' → timevalMicros guest' < 10 ^ 6 → timevalTotal guest ≤ timevalTotal guest' →
        ofLeBytes (guestTimeoutToWindows guest) ≤ ofLeBytes (guestTimeoutToWindows guest')) ∧
    ∀ (m : UInt32) (n : Nat), 16 ≤ n →
      guestTimeoutToWindows (windowsTimeoutToGuest (leBytes 4 m.toNat) n) = leBytes 4 m.toNat := by
  constructor
  · intro guest hlen hlow hhigh
    have heq := ofLeBytes_timeout (Nat.le_of_eq hlen.symm) ⟨hlow, hhigh⟩
    refine ⟨guestTimeoutToWindows_eq (Nat.le_of_eq hlen.symm) ⟨hlow, hhigh⟩, ?_, ?_⟩
    · intro hpos
      have := timeoutMillis_pos hpos
      omega
    · intro guest' hlen' hlow' hhigh' hle
      have heq' := ofLeBytes_timeout (Nat.le_of_eq hlen'.symm) ⟨hlow', hhigh'⟩
      have := timeoutMillis_mono hle
      omega
  · intro m n hn
    have hm := m.toNat_lt
    obtain ⟨hlen, hs, hu⟩ := timeval_windowsTimeoutToGuest hm hn
    rw [guestTimeoutToWindows_eq (Nat.le_of_eq hlen.symm) (by omega)]
    have htotal : timevalTotal (windowsTimeoutToGuest (leBytes 4 m.toNat) n) = m.toNat * 1000 := by
      unfold timevalTotal
      omega
    rw [htotal, timeoutMillis_eq]
    congr 1
    omega

/-- A second and a microsecond are 1001 milliseconds. -/
theorem guest_timeout_rounded :
    guestTimeoutToWindows (leBytes 8 1 ++ leBytes 8 1) = leBytes 4 1001 ∧
      guestTimeoutToWindows (windowsTimeoutToGuest (leBytes 4 1001) 16) = leBytes 4 1001 := by
  have hmillis : timeoutMillis (timevalTotal (leBytes 8 1 ++ leBytes 8 1)) = 1001 := by
    rw [TimeoutsAux.timeoutMillis_eq]
    decide
  refine ⟨?_, guest_timeout.2 1001 16 (by decide)⟩
  rw [(guest_timeout.1 (leBytes 8 1 ++ leBytes 8 1) (by decide) (by decide) (by decide)).1, hmillis]
  rfl

end WasmtimeMysql.Windows
