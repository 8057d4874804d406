import WasmtimeMysql.Lemmas.Wp

/-!
# The pending error of a socket

`getsockopt` with the guest's `SO_ERROR` translates the value it gets from the host: 0 means that no error is pending. The Windows
module keeps 0 as 0. The Unix module runs every value through `from_host_errno`, which knows no 0 and returns `EIO` for it; and it
passes the guest's option number 4 on as it is, which is `SO_ERROR` on Linux and another option on macOS. `pending_error_iff` says
when the guest learns the truth.
-/

namespace WasmtimeMysql

open Effects Bytes

/-- What an import wrote to guest memory: the address and the bytes of each write, in order. -/
def writesOf {H : Sig} (tr : List (Event (GuestMem.sum H))) : List (Int32 × List UInt8) :=
  tr.filterMap fun ev =>
    match ev.1 with
    | .inl (.writeGuest ptr bytes) => some (ptr, bytes)
    | _ => none

/-- An `i32` as the four bytes of it. -/
def i32Bytes (x : Int32) : List UInt8 := leBytes 4 x.toUInt32.toNat

theorem length_i32Bytes (x : Int32) : (i32Bytes x).length = 4 := length_leBytes 4 _

/-- Reading the bytes of an `i32` gives it back. -/
theorem ofNat_ofLeBytes_i32Bytes (x : Int32) : Int32.ofNat (ofLeBytes (i32Bytes x)) = x := by
  have hlt : x.toUInt32.toNat < 256 ^ 4 := x.toUInt32.toNat_lt
  unfold i32Bytes
  rw [ofLeBytes_leBytes, Nat.mod_eq_of_lt hlt, ← UInt32.toInt32_ofNat', UInt32.ofNat_toNat,
    Int32.toInt32_toUInt32]

theorem i32Bytes_inj {x y : Int32} (h : i32Bytes x = i32Bytes y) : x = y := by
  rw [← ofNat_ofLeBytes_i32Bytes x, h, ofNat_ofLeBytes_i32Bytes]

/-- The value the guest got is right for a pending error: it is 0 exactly when no error is pending, and otherwise the errno that the
guest gets, negated, from a call that fails with that error. -/
def TellsError (failing : Int32 → Prop) (err w : Int32) : Prop :=
  (w = 0 ↔ err = 0) ∧ (err ≠ 0 → 0 < w ∧ failing (-w))

/-! ## Unix -/

namespace Unix

/-- The answers of the kernel, with `errno` set to an error. -/
def withErrno (net : (c : Net.Cmd) → c.Resp) (err : Int32) : (c : Net.Cmd) → c.Resp
  | .lastOsError => some err
  | c => net c

/-- What every failing call that sets `errno` to the error returns to the guest through `cvt_i32`. -/
def FailingCall (lc : Libc) (net : (c : Net.Cmd) → c.Resp) (err result : Int32) : Prop :=
  ∀ rc s tr o s', rc < 0 → Runs (machine (.oracle (withErrno net err))) (cvtI32 lc rc) s tr o s' → o = .returned result

/-- A `getsockopt` for `SO_ERROR` that succeeds tells the guest of the pending error. -/
def ReportsError (lc : Libc) (net : (c : Net.Cmd) → c.Resp) (e : Export) (a : AppState HostSocket)
    (fd level optvalPtr optlenPtr err : Int32) : Prop :=
  ∀ tr v s', Runs (machine (.oracle net)) (getsockopt lc fd level wasiSoError optvalPtr optlenPtr) (e, a, ()) tr (.returned v) s' →
    0 ≤ v → ∃ w, writesOf tr = [(optvalPtr, i32Bytes w), (optlenPtr, leBytes 4 4)] ∧ TellsError (FailingCall lc net err) err w

end Unix

/-! ## Windows -/

namespace Windows

/-- The answers of WinSock, with the last error set. -/
def withLastError (net : (c : Net.Cmd) → c.Resp) (err : Int32) : (c : Net.Cmd) → c.Resp
  | .wsaGetLastError => err
  | c => net c

/-- What every failing call with the error returns to the guest through `cvt_socket_i32`. -/
def FailingCall (net : (c : Net.Cmd) → c.Resp) (err result : Int32) : Prop :=
  ∀ s tr o s', Runs (machine (.oracle (withLastError net err))) (cvtSocketI32 socketError) s tr o s' → o = .returned result

/-- A `getsockopt` for `SO_ERROR` that succeeds tells the guest of the pending error. -/
def ReportsError (net : (c : Net.Cmd) → c.Resp) (e : Export) (a : AppState HostSocket)
    (fd level optvalPtr optlenPtr err : Int32) : Prop :=
  ∀ tr v s', Runs (machine (.oracle net)) (getsockopt fd level guestSoError optvalPtr optlenPtr) (e, a, ()) tr (.returned v) s' →
    0 ≤ v → ∃ w, writesOf tr = [(optvalPtr, i32Bytes w), (optlenPtr, leBytes 4 4)] ∧ TellsError (FailingCall net err) err w

end Windows

namespace PendingAux

variable {e : Export} {optvalPtr optlenPtr : Int32} {old : List UInt8}

/-- A buffer of four bytes that can be read can be written, and so can the length word after it. -/
theorem writes_ok (hbuf : e.readGuest optvalPtr 4 = .ok old) (hlen : e.readU32 optlenPtr = .ok 4) {bytes : List UInt8}
    (hb : bytes.length = 4) :
    e.writeAnswer optvalPtr bytes = .ok () ∧ (e.afterWrite optvalPtr bytes).writeAnswer optlenPtr (leBytes 4 4) = .ok () := by
  have hfour : checkedLen 4 = .ok 4 := by rfl
  obtain ⟨he, start, n, hptr, hn, hle⟩ := Export.readGuest_ok hbuf
  cases hfour.symm.trans hn
  obtain ⟨bytes', hread⟩ : ∃ bytes', e.readGuest optlenPtr 4 = .ok bytes' := by
    cases h : e.readGuest optlenPtr 4 with
    | error errno => rw [Export.readU32, h] at hlen; cases hlen
    | ok bytes' => exact ⟨bytes', rfl⟩
  obtain ⟨-, start', n', hptr', hn', hle'⟩ := Export.readGuest_ok hread
  cases hfour.symm.trans hn'
  refine ⟨Export.writeAnswer_of_le he hptr (by rw [hb]; decide) (by rw [hb]; exact hle), ?_⟩
  refine Export.writeAnswer_of_le ((e.isMemory_afterWrite optvalPtr bytes).mpr he) hptr' (by rw [length_leBytes]; decide) ?_
  rw [length_leBytes, e.length_data_afterWrite]
  exact hle'

/-- The guest's number of an errno is not 0. -/
theorem code_ne_zero (errno : Errno) : errno.code ≠ 0 := by cases errno <;> decide

theorem code_pos (errno : Errno) : 0 < errno.code := by cases errno <;> decide

end PendingAux

namespace Unix

open PendingAux

variable {lc : Libc} {net : (c : Net.Cmd) → c.Resp} {e : Export} {a : AppState HostSocket} {socket : HostSocket}

/-- What a call that fails with an error returns. -/
theorem failingCall_iff {err result : Int32} : FailingCall lc net err result ↔ negErrno (fromHostErrno lc err) = result := by
  have hwp {rc : Int32} (hrc : rc < 0) (s : Export × (AppState HostSocket × Unit)) :
      wp (machine (.oracle (withErrno net err))) (cvtI32 lc rc) (fun _ o _ => o = .returned result) s ↔
        negErrno (fromHostErrno lc err) = result := by
    obtain ⟨e, a, u⟩ := s
    rw [cvtI32, if_pos hrc, wp_negLastErrno]
    refine Machine.forall_oracle.trans ⟨fun h => ?_, fun h => ?_⟩
    · exact Outcome.returned.inj h
    · exact congrArg Outcome.returned h
  constructor
  · intro h
    exact (hwp (by decide : (-1 : Int32) < 0) (.missing, ⟨false, .empty _ _⟩, ())).mp
      (wp_iff_runs.mpr fun tr o s' hr => h _ _ tr o s' (by decide) hr)
  · intro h rc s tr o s' hrc hr
    exact hr.of_wp ((hwp hrc s).mpr h)

/-- The errno of a value is right for the pending error when the error is not 0 and has that errno. -/
theorem tellsError_iff (net : (c : Net.Cmd) → c.Resp) {err v : Int32} : TellsError (FailingCall lc net err) err (fromHostErrno lc v).code ↔
    err ≠ 0 ∧ (fromHostErrno lc v).code = (fromHostErrno lc err).code := by
  unfold TellsError
  rw [failingCall_iff]
  constructor
  · rintro ⟨hzero, hfail⟩
    have herr : err ≠ 0 := fun h => code_ne_zero _ (hzero.mpr h)
    exact ⟨herr, (Int32.neg_inj.mp (hfail herr).2).symm⟩
  · rintro ⟨herr, hcode⟩
    refine ⟨⟨fun h => absurd h (code_ne_zero _), fun h => absurd h herr⟩, fun _ => ⟨code_pos _, ?_⟩⟩
    rw [negErrno, hcode]

/-- The guest gets the errno of whatever value the host has for the option 4. -/
theorem reportsError_iff {fd level optvalPtr optlenPtr err v : Int32} {old : List UInt8}
    (hfd : a.sockets.find fd = some socket) (hlevel : isGuestSocketLevel level) (hlen : e.readU32 optlenPtr = .ok 4)
    (hbuf : e.readGuest optvalPtr 4 = .ok old)
    (hfour : net (.getsockopt socket.rawFd lc.solSocket wasiSoError 4) = ⟨0, i32Bytes v, 4⟩) :
    ReportsError lc net e a fd level optvalPtr optlenPtr err ↔
      err ≠ 0 ∧ (fromHostErrno lc v).code = (fromHostErrno lc err).code := by
  have hwp : ReportsError lc net e a fd level optvalPtr optlenPtr err ↔
      wp (machine (.oracle net)) (getsockopt lc fd level wasiSoError optvalPtr optlenPtr)
        (fun tr o _ => ∀ v, o = .returned v → 0 ≤ v →
          ∃ w, writesOf tr = [(optvalPtr, i32Bytes w), (optlenPtr, leBytes 4 4)] ∧ TellsError (FailingCall lc net err) err w)
        (e, a, ()) := by
    rw [wp_iff_runs]
    constructor
    · rintro h tr o s' hr v rfl hv
      exact h tr v s' hr hv
    · intro h tr v s' hr hv
      exact h tr _ s' hr v rfl hv
  have hanswer : net (.getsockopt socket.rawFd (normalizeSocketLevel lc level) wasiSoError 4) = ⟨0, i32Bytes v, 4⟩ := by
    rw [normalizeSocketLevel, if_pos hlevel]
    exact hfour
  have hfill : fill (4 : UInt32).toNat (i32Bytes v) = i32Bytes v := fill_of_length (length_i32Bytes v)
  have htranslate : translateSoError lc (i32Bytes v) = i32Bytes (fromHostErrno lc v).code := by
    have htake : (i32Bytes v).take 4 = i32Bytes v := List.take_of_length_le (Nat.le_of_eq (length_i32Bytes v))
    rw [translateSoError, htake, ofNat_ofLeBytes_i32Bytes]
    exact overwrite_all (by rw [length_leBytes, length_i32Bytes])
  have htake : (i32Bytes (fromHostErrno lc v).code).take 4 = i32Bytes (fromHostErrno lc v).code :=
    List.take_of_length_le (Nat.le_of_eq (length_i32Bytes _))
  obtain ⟨hw₁, hw₂⟩ := writes_ok hbuf hlen (length_i32Bytes (fromHostErrno lc v).code)
  rw [hwp]
  simp only [getsockopt, Prog.pure_eq, Prog.ret_bind, wp_bind, wp_get, hfd, okOrEbadf, wpNext_returned, wp_readU32, hlen, wp_alloc,
    wp_libc_oracle, hanswer, hfill, List.cons_append, List.nil_append]
  rw [if_neg (by decide), if_pos ⟨hlevel, trivial, by decide⟩]
  simp only [htranslate, wp_bind, wp_sliceTo, length_i32Bytes, UInt32.reduceToNat, Nat.le_refl, if_true, wpNext_returned, htake,
    wp_writeGuest, hw₁, wp_writeU32, hw₂, wp_ret, List.cons_append, List.nil_append]
  rw [← tellsError_iff net]
  constructor
  · intro h
    obtain ⟨w, hw, ht⟩ := h 0 rfl (by decide)
    cases i32Bytes_inj (congrArg Prod.snd (List.cons.inj hw).1)
    exact ht
  · rintro ht v' - -
    exact ⟨_, rfl, ht⟩

end Unix

namespace Windows

open PendingAux

variable {net : (c : Net.Cmd) → c.Resp} {e : Export} {a : AppState HostSocket} {socket : HostSocket}

/-- What a call that fails with an error returns. -/
theorem failingCall_of_eq {err result : Int32} (h : -socketErrno err = result) : FailingCall net err result := by
  rintro ⟨e, a, u⟩ tr o s' hr
  refine hr.of_wp (Q := fun _ o _ => o = .returned result) ?_
  rw [cvtSocketI32, if_pos rfl, wp_negLastSocketErrno]
  refine Machine.forall_oracle.mpr ?_
  exact congrArg Outcome.returned h

/-- The errno of a WinSock error is right for it. -/
theorem tellsError (err : Int32) : TellsError (FailingCall net err) err (socketErrno err) := by
  constructor
  · constructor
    · intro h
      refine Decidable.byContradiction fun hne => ?_
      obtain ⟨errno, he⟩ := socketErrno_of_ne_zero hne
      exact code_ne_zero errno (he.symm.trans h)
    · rintro rfl
      rfl
  · intro hne
    obtain ⟨errno, he⟩ := socketErrno_of_ne_zero hne
    exact ⟨by rw [he]; exact code_pos errno, failingCall_of_eq rfl⟩

/-- The guest gets the errno of the pending error, or 0. -/
theorem reportsError {fd level optvalPtr optlenPtr err : Int32} {old : List UInt8} (hfd : a.sockets.find fd = some socket)
    (hlevel : isGuestSocketLevel level) (hlen : e.readU32 optlenPtr = .ok 4) (hbuf : e.readGuest optvalPtr 4 = .ok old)
    (hpending : net (.getsockopt socket.rawSocket 0xffff 0x1007 4) = ⟨0, i32Bytes err, 4⟩) :
    ReportsError net e a fd level optvalPtr optlenPtr err := by
  have hoption : normalizeSocketOption level guestSoError = (0xffff, 0x1007) := by
    rw [normalizeSocketOption, if_pos hlevel]
    rfl
  have htimeout : isGuestTimeout level guestSoError = false := by
    rw [isGuestTimeout, hlevel]
    rfl
  have hfill : fill 4 (i32Bytes err) = i32Bytes err := fill_of_length (length_i32Bytes err)
  have htake (x : Int32) : (i32Bytes x).take 4 = i32Bytes x := List.take_of_length_le (Nat.le_of_eq (length_i32Bytes x))
  have hguest : guestOption level guestSoError 4 (i32Bytes err) = i32Bytes (socketErrno err) := by
    rw [guestOption, htimeout, if_neg (by decide), if_pos ⟨hlevel, rfl, length_i32Bytes err⟩, htake, ofNat_ofLeBytes_i32Bytes]
    rfl
  obtain ⟨hw₁, hw₂⟩ := writes_ok hbuf hlen (length_i32Bytes (socketErrno err))
  have hwp : wp (machine (.oracle net)) (getsockopt fd level guestSoError optvalPtr optlenPtr)
      (fun tr o _ => ∀ v, o = .returned v → 0 ≤ v →
        ∃ w, writesOf tr = [(optvalPtr, i32Bytes w), (optlenPtr, leBytes 4 4)] ∧ TellsError (FailingCall net err) err w)
      (e, a, ()) := by
    have hchecked : checkedSockaddrLen 4 = .ok 4 := by rfl
    have hanswer : net (.getsockopt socket.rawSocket (normalizeSocketOption level guestSoError).1
        (normalizeSocketOption level guestSoError).2 (Int32.ofNat (if isGuestTimeout level guestSoError then 4 else 4))) =
        ⟨0, i32Bytes err, 4⟩ := by
      rw [hoption, htimeout]
      exact hpending
    have hsize : asUsize 4 = 4 := by rfl
    simp only [getsockopt, Prog.pure_eq, Prog.ret_bind, wp_bind, wp_get, hfd, okOrEbadf, wpNext_returned, wp_readSockaddrLen, hlen,
      Except.bind, hchecked, wp_alloc, wp_ws_oracle, hanswer, htimeout, Bool.false_eq_true, if_false, hfill, hsize,
      List.cons_append, List.nil_append]
    rw [if_neg (by decide), if_neg (by decide)]
    simp only [wp_bind, wp_sliceTo, length_i32Bytes, Nat.le_refl, if_true, wpNext_returned, htake, hguest, wp_writeGuest, hw₁,
      wp_writeU32, UInt32.reduceOfNat, UInt32.reduceToNat, hw₂, wp_ret, List.cons_append, List.nil_append]
    rintro v - -
    exact ⟨socketErrno err, rfl, tellsError err⟩
  intro tr v s' hr hv
  exact hr.of_wp hwp v rfl hv

end Windows

/-- On Windows a `getsockopt` for `SO_ERROR` tells the guest of every pending error. On Unix it does exactly for a pending error that is
not 0 and has the same guest errno as the value the host keeps under the option number 4 of its socket level. That value is the
pending error itself where `SO_ERROR` is 4, as on Linux. -/
theorem pending_error_iff (e : Export) (fd level optvalPtr optlenPtr err : Int32) (old : List UInt8)
    (hlevel : isGuestSocketLevel level) (hlen : e.readU32 optlenPtr = .ok 4) (hbuf : e.readGuest optvalPtr 4 = .ok old) :
    (∀ (lc : Libc) (net : (c : Unix.Net.Cmd) → c.Resp) (a : AppState Unix.HostSocket) (socket : Unix.HostSocket) (v : Int32),
      a.sockets.find fd = some socket →
      net (.getsockopt socket.rawFd lc.solSocket lc.soError 4) = ⟨0, i32Bytes err, 4⟩ →
      net (.getsockopt socket.rawFd lc.solSocket wasiSoError 4) = ⟨0, i32Bytes v, 4⟩ →
      (Unix.ReportsError lc net e a fd level optvalPtr optlenPtr err ↔
        err ≠ 0 ∧ (lc.soError = wasiSoError ∨ (fromHostErrno lc v).code = (fromHostErrno lc err).code))) ∧
    (∀ (net : (c : Windows.Net.Cmd) → c.Resp) (a : AppState Windows.HostSocket) (socket : Windows.HostSocket),
      a.sockets.find fd = some socket →
      net (.getsockopt socket.rawSocket 0xffff 0x1007 4) = ⟨0, i32Bytes err, 4⟩ →
      Windows.ReportsError net e a fd level optvalPtr optlenPtr err) := by
  constructor
  · intro lc net a socket v hfd hpending hfour
    rw [Unix.reportsError_iff hfd hlevel hlen hbuf hfour]
    refine and_congr_right fun _ => ⟨.inr, ?_⟩
    rintro (hso | hcode)
    · rw [hso] at hpending
      have hdata : i32Bytes v = i32Bytes err := congrArg Unix.BufAnswer.data (hfour.symm.trans hpending)
      rw [i32Bytes_inj hdata]
    · exact hcode
  · intro net a socket hfd hpending
    exact Windows.reportsError hfd hlevel hlen hbuf hpending

/-- A kernel whose `getsockopt` answers with a pending error. -/
def Unix.pendingAnswers (err : Int32) : (c : Unix.Net.Cmd) → c.Resp
  | .getsockopt .. => ⟨0, i32Bytes err, 4⟩
  | c => Unix.refusing c

/-- A refused connection on Linux is reported. -/
theorem pending_error_refused :
    Unix.ReportsError linux (Unix.pendingAnswers 111) (.memory (4 :: List.replicate 15 0)) Unix.oneSocket 10000 1 8 0 111 :=
  ((pending_error_iff (.memory (4 :: List.replicate 15 0)) 10000 1 8 0 111 (List.replicate 4 0) (by decide) rfl rfl).1
    linux (Unix.pendingAnswers 111) Unix.oneSocket ⟨3, 2, 2⟩ 111 (by decide) rfl rfl).mpr ⟨by decide, .inl rfl⟩

/-- A connection without an error on Linux is reported as `EIO`. -/
theorem pending_error_none_reported :
    ¬Unix.ReportsError linux (Unix.pendingAnswers 0) (.memory (4 :: List.replicate 15 0)) Unix.oneSocket 10000 1 8 0 0 := by
  intro h
  have hfd : Unix.oneSocket.sockets.find 10000 = some ⟨3, 2, 2⟩ := by decide
  have hbuf : Export.readGuest (.memory (4 :: List.replicate 15 0)) 8 4 = .ok (List.replicate 4 0) := rfl
  have hfour : Unix.pendingAnswers 0 (.getsockopt 3 linux.solSocket wasiSoError 4) = ⟨0, i32Bytes 0, 4⟩ := rfl
  exact ((Unix.reportsError_iff hfd (by decide) rfl hbuf hfour).mp h).1 rfl

end WasmtimeMysql
