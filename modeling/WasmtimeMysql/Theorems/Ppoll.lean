import WasmtimeMysql.GuestShim

/-!
# The timeout of `ppoll`

`ppoll` takes a timespec and `poll` milliseconds in an `int`. The shim refuses seconds whose milliseconds would not fit, and adds the
milliseconds of the nanoseconds afterwards. So all timeouts are exact but those of the last 0.352 seconds below the limit, where the sum
wraps to a negative number and a finite timeout becomes an infinite one (`timeoutKept_iff`).
-/

namespace WasmtimeMysql

open Effects Effects.Prog

/-- A timespec as POSIX has it. -/
def Timespec.Valid (t : Timespec) : Prop := 0 ≤ t.tvSec ∧ 0 ≤ t.tvNsec ∧ t.tvNsec < 1000000000

/-- The whole milliseconds of a timespec. -/
def Timespec.millis (t : Timespec) : Int := (t.tvSec.toInt * 10 ^ 9 + t.tvNsec.toInt) / 10 ^ 6

/-- No step of the conversion leaves its type: the product is one of 64 bits, its conversion and the sum are of 32. -/
def Timespec.NoOverflow (t : Timespec) : Prop :=
  (-2 ^ 63 ≤ t.tvSec.toInt * 1000 ∧ t.tvSec.toInt * 1000 < 2 ^ 63) ∧
  (-2 ^ 31 ≤ t.tvSec.toInt * 1000 ∧ t.tvSec.toInt * 1000 < 2 ^ 31) ∧
  (-2 ^ 31 ≤ t.tvSec.toInt * 1000 + (t.tvNsec / 1000000).toInt ∧ t.tvSec.toInt * 1000 + (t.tvNsec / 1000000).toInt < 2 ^ 31)

/-- `ppoll` fails with `EINVAL` and polls nothing, or it polls with the milliseconds of its timeout, or with -1 for none. -/
def TimeoutKept (fds : Int32) (nfds : UInt32) : Option Timespec → Prop
  | none => waasmtimeMysqlPpoll fds nfds none = waasmtimeMysqlPoll fds nfds (-1)
  | some t => waasmtimeMysqlPpoll fds nfds (some t) = pure ⟨-1, some Errno.einval.code⟩ ∨
      ∃ timeout : Int32, waasmtimeMysqlPpoll fds nfds (some t) = waasmtimeMysqlPoll fds nfds timeout ∧
        0 ≤ timeout ∧ timeout.toInt = t.millis ∧ t.NoOverflow

namespace PpollAux

variable {fds : Int32} {nfds : UInt32} {t : Timespec}

theorem poll_of_large (h : 0x7fffffff < nfds) (timeout : Int32) :
    waasmtimeMysqlPoll fds nfds timeout = pure ⟨-1, some Errno.einval.code⟩ := if_pos h

/-- A count that fits is polled, with the timeout as it is. -/
theorem poll_of_small (h : ¬0x7fffffff < nfds) (timeout : Int32) :
    waasmtimeMysqlPoll fds nfds timeout =
      Prog.call (S := GuestSockets) (.poll fds nfds.toInt32 timeout) fun rc => .ret (decodeI32 rc) := if_neg h

theorem poll_ne_pure (h : ¬0x7fffffff < nfds) (timeout : Int32) (d : Decoded Int32) : waasmtimeMysqlPoll fds nfds timeout ≠ pure d := by
  rw [poll_of_small h]
  exact nofun

theorem tvSec_range (h : t.Valid) : 0 ≤ t.tvSec.toInt := Int64.le_iff_toInt_le.mp h.1

theorem tvNsec_range (h : t.Valid) : 0 ≤ t.tvNsec.toInt ∧ t.tvNsec.toInt < 1000000000 :=
  ⟨Int32.le_iff_toInt_le.mp h.2.1, Int32.lt_iff_toInt_lt.mp h.2.2⟩

/-- The seconds that are refused. -/
theorem gt_iff : t.tvSec > 2147483647 / 1000 ↔ 2147483 < t.tvSec.toInt := Int64.lt_iff_toInt_lt

theorem toInt_nsecMillis (h : t.Valid) : (t.tvNsec / 1000000).toInt = t.tvNsec.toInt / 1000000 := by
  obtain ⟨hlow, hhigh⟩ := tvNsec_range h
  rw [Int32.toInt_div, show (1000000 : Int32).toInt = 1000000 from rfl, Int.tdiv_eq_ediv_of_nonneg hlow]
  exact Int.bmod_eq_of_le (by omega) (by omega)

/-- The seconds that are accepted, in milliseconds, do fit. -/
theorem toInt_secMillis (h : t.Valid) (hsec : t.tvSec.toInt ≤ 2147483) : (t.tvSec * 1000).toInt32.toInt = t.tvSec.toInt * 1000 := by
  have hlow := tvSec_range h
  rw [Int64.toInt_toInt32, Int64.toInt_mul, show (1000 : Int64).toInt = 1000 from rfl]
  rw [Int.bmod_eq_of_le (n := t.tvSec.toInt * 1000) (by omega) (by omega)]
  exact Int.bmod_eq_of_le (by omega) (by omega)

/-- The sum, as it wraps. -/
theorem toInt_timeout (h : t.Valid) (hsec : t.tvSec.toInt ≤ 2147483) :
    ((t.tvSec * 1000).toInt32 + t.tvNsec / 1000000).toInt = (t.tvSec.toInt * 1000 + t.tvNsec.toInt / 1000000).bmod (2 ^ 32) := by
  rw [Int32.toInt_add, toInt_secMillis h hsec, toInt_nsecMillis h]

theorem millis_eq : t.millis = t.tvSec.toInt * 1000 + t.tvNsec.toInt / 1000000 := by
  unfold Timespec.millis
  omega

theorem ppoll_of_large (hsec : 2147483 < t.tvSec.toInt) :
    waasmtimeMysqlPpoll fds nfds (some t) = pure ⟨-1, some Errno.einval.code⟩ := if_pos (gt_iff.mpr hsec)

theorem ppoll_of_small (hsec : t.tvSec.toInt ≤ 2147483) : waasmtimeMysqlPpoll fds nfds (some t) =
    waasmtimeMysqlPoll fds nfds ((t.tvSec * 1000).toInt32 + t.tvNsec / 1000000) :=
  if_neg fun hgt => absurd (gt_iff.mp hgt) (Int.not_lt.mpr hsec)

/-- Below the limit nothing wraps. -/
theorem timeoutKept_of_fits (h : t.Valid) (hsec : t.tvSec.toInt ≤ 2147483) (hfits : t.millis < 2 ^ 31) :
    TimeoutKept fds nfds (some t) := by
  have hlow := tvSec_range h
  have hnsec := tvNsec_range h
  rw [millis_eq] at hfits
  have htimeout := toInt_timeout h hsec
  rw [Int.bmod_eq_of_le (by omega) (by omega)] at htimeout
  refine .inr ⟨_, ppoll_of_small hsec, ?_, ?_, ?_⟩
  · rw [Int32.le_iff_toInt_le, htimeout, show (0 : Int32).toInt = 0 from rfl]
    omega
  · rw [htimeout, millis_eq]
  · unfold Timespec.NoOverflow
    rw [toInt_nsecMillis h]
    omega

/-- Above it the timeout that is polled with is not the one that was given. -/
theorem fits_of_timeoutKept (h : t.Valid) (hsec : t.tvSec.toInt ≤ 2147483) (hn : ¬0x7fffffff < nfds)
    (hkept : TimeoutKept fds nfds (some t)) : t.millis < 2 ^ 31 := by
  rcases hkept with hpure | ⟨timeout, -, -, -, hover⟩
  · rw [ppoll_of_small hsec] at hpure
    exact absurd hpure (poll_ne_pure hn _ _)
  · have hsum := hover.2.2.2
    rw [toInt_nsecMillis h] at hsum
    rw [millis_eq]
    exact hsum

/-- The milliseconds of seconds within the limit do not fit in the last part of the last second only. -/
theorem millis_lt_iff (h : t.Valid) (hsec : t.tvSec.toInt ≤ 2147483) :
    t.millis < 2 ^ 31 ↔ ¬(t.tvSec.toInt = 2147483 ∧ 648000000 ≤ t.tvNsec.toInt) := by
  have hnsec := tvNsec_range h
  rw [millis_eq]
  omega

end PpollAux

open PpollAux in
/-- `ppoll` keeps every timeout that it accepts, but for those of 2147483 seconds and 648 milliseconds or more: there the `int` wraps,
unless the number of entries is refused anyway. -/
theorem timeoutKept_iff (fds : Int32) (nfds : UInt32) (timeout : Option Timespec) (h : ∀ t ∈ timeout, t.Valid) :
    TimeoutKept fds nfds timeout ↔
      ∀ t ∈ timeout, t.tvSec = 2147483 → 648000000 ≤ t.tvNsec → 0x7fffffff < nfds := by
  cases timeout with
  | none => exact ⟨nofun, fun _ => rfl⟩
  | some t =>
    have hvalid := h t rfl
    have hcond : (∀ t' ∈ some t, t'.tvSec = 2147483 → 648000000 ≤ t'.tvNsec → 0x7fffffff < nfds) ↔
        (t.tvSec.toInt = 2147483 ∧ 648000000 ≤ t.tvNsec.toInt → 0x7fffffff < nfds) := by
      constructor
      · rintro hall ⟨hsec, hnsec⟩
        exact hall t rfl (Int64.toInt.inj hsec) (Int32.le_iff_toInt_le.mpr hnsec)
      · rintro himp t' ⟨⟩ hsec hnsec
        exact himp ⟨congrArg Int64.toInt hsec, Int32.le_iff_toInt_le.mp hnsec⟩
    rw [hcond]
    by_cases hlarge : 2147483 < t.tvSec.toInt
    · exact ⟨fun _ hlast => absurd hlast.1 (by omega), fun _ => .inl (ppoll_of_large hlarge)⟩
    · have hsec := Int.not_lt.mp hlarge
      by_cases hn : 0x7fffffff < nfds
      · refine ⟨fun _ _ => hn, fun _ => .inl ?_⟩
        rw [ppoll_of_small hsec, poll_of_large hn]
      · constructor
        · intro hkept hlast
          exact absurd hlast ((millis_lt_iff hvalid hsec).mp (fits_of_timeoutKept hvalid hsec hn hkept))
        · intro himp
          exact timeoutKept_of_fits hvalid hsec ((millis_lt_iff hvalid hsec).mpr fun hlast => hn (himp hlast))

/-- Ten seconds and 1.5 milliseconds, a valid timespec below the limit. -/
theorem timeoutKept_seconds : TimeoutKept 0 1 (some ⟨10, 1500000⟩) :=
  (timeoutKept_iff 0 1 (some ⟨10, 1500000⟩) (by rintro t ⟨⟩; unfold Timespec.Valid; decide)).mpr (by rintro t ⟨⟩; decide)

/-- The longest timespec that passes the check is polled for with a negative timeout, for ever. -/
theorem timeout_lost :
    Timespec.Valid ⟨2147483, 999999999⟩ ∧ waasmtimeMysqlPpoll 0 1 (some ⟨2147483, 999999999⟩) = waasmtimeMysqlPoll 0 1 (-2147483297) ∧
      ¬TimeoutKept 0 1 (some ⟨2147483, 999999999⟩) := by
  refine ⟨by unfold Timespec.Valid; decide, rfl, ?_⟩
  rintro (hpure | ⟨timeout, -, -, -, hover⟩)
  · cases hpure
  · revert hover
    unfold Timespec.NoOverflow
    decide

end WasmtimeMysql
