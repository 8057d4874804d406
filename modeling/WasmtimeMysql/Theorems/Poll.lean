import WasmtimeMysql.Lemmas.Poll

/-!
# What `poll` tells the guest

On Unix every entry of the guest's array gets the `revents` that the kernel has for the socket of its own fd, and `poll` returns how many of
them are not 0 (`polled_unix`). On Windows the number is WinSock's and the `revents` are the import's, and the two agree exactly when WinSock
reports nothing for an entry that is ignored, and for a live one something that has a name on Unix (`polled_windows_iff`).
-/

namespace WasmtimeMysql

open Effects Bytes

/-! ## On Unix -/

/-- An array of `n` entries within a memory of at most 1 GiB. -/
structure PollArray (e : Export) (fdsPtr nfds : Int32) (start n : Nat) : Prop where
  isMemory : e.IsMemory
  maxMemory : e.data.length ≤ 2 ^ 30
  ptr : fdsPtr.toInt = start
  count : nfds.toInt = n
  maxCount : n ≤ maxPollFds
  fits : start + 8 * n ≤ e.data.length

namespace Unix

/-- What is relied on from the kernel's `poll`: it ignores negative fds and returns the number of entries with `revents` other than 0. -/
def CountsReady : (c : Net.Cmd) → c.Resp → Prop
  | .poll fds _, answer => 0 ≤ answer.rc → answer.revents.length = fds.length ∧
    (∀ (i : Nat) (entry : PollFd), fds[i]? = some entry → entry.fd < 0 → answer.revents[i]? = some 0) ∧
    answer.rc.toInt = answer.revents.countP (· ≠ 0)
  | _, _ => True

/-- A kernel that answers as `poll` does, and beyond that anything. -/
def pollKernel : Machine Net Unit := fun _ c r _ => CountsReady c r

/-- What the guest finds after `poll`. Every write is of a `revents` field and succeeds. If a number is returned, each entry has its fd and
its events still and the `revents` of its own host entry, which are 0 if the fd is negative, and the number is how many are not 0. An fd that
is not in the table gives `-EBADF`, with the memory as it was. -/
structure Polled (a : AppState HostSocket) (start n : Nat) (timeout : Int32) (e : Export) (tr : List (Event Sockets)) (o : Outcome Int32)
    (e' : Export) : Prop where
  writes : ∀ ev ∈ tr, IsWrite ev.1 → WritesBack start n ev
  ready : ∀ rc, o = .returned rc → 0 ≤ rc → ∃ fds, ∃ answer : PollAnswer, (⟨.inr (.inr (.poll fds timeout)), answer⟩ : Event Sockets) ∈ tr ∧
    (∀ i < n, (e'.pollEntry start i).take 6 = (e.pollEntry start i).take 6 ∧
      (∃ fd, pollFdOf a.sockets (e.pollEntry start i) = some fd ∧ fds[i]? = some fd) ∧
      answer.revents[i]? = some (guestRevents (e'.pollEntry start i)) ∧
      ((guestPollFd (e.pollEntry start i)).1 < 0 → guestRevents (e'.pollEntry start i) = 0)) ∧
    (e'.readyCount start n : Int) = rc.toInt
  unknown : (∃ i < n, 0 ≤ (guestPollFd (e.pollEntry start i)).1 ∧ a.sockets.find (guestPollFd (e.pollEntry start i)).1 = none) →
    o = .returned (negErrno .ebadf) ∧ e' = e

end Unix

/-! ## On Windows -/

namespace Windows

/-- What is relied on from `WSAPoll`: it fails or returns the number of entries with `revents` other than 0. -/
def CountsReady : (c : Net.Cmd) → c.Resp → Prop
  | .wsaPoll fds _, answer =>
    answer.rc = socketError ∨ answer.revents.length = fds.length ∧ answer.rc.toInt = answer.revents.countP (· ≠ 0)
  | _, _ => True

/-- WinSock with a last error and a `WSAPoll` like that. -/
def pollWinsock : Machine Net Int32 := fun err c r err' => lastError err c r err' ∧ CountsReady c r

/-- The conditions POLLIN, POLLPRI, POLLOUT, POLLERR, POLLHUP and POLLNVAL, with the bits of WinSock and the bit of the guest for each. -/
def pollConditions : List (UInt16 × UInt16) :=
  [(0x0300, 0x01), (0x0400, 0x02), (0x0010, 0x04), (0x0001, 0x08), (0x0002, 0x10), (0x0004, 0x20)]

/-- What the guest finds after `poll` returned a number: the number is how many entries have `revents` other than 0, and a live entry has
those that WinSock reported for its own socket. -/
structure Polled (a : AppState HostSocket) (start n : Nat) (timeout : Int32) (e : Export) (tr : List (Event Sockets)) (rc : Int32)
    (e' : Export) : Prop where
  count : (e'.readyCount start n : Int) = rc.toInt
  live : ∃ fds, ∃ answer : PollAnswer, (⟨.inr (.inr (.wsaPoll fds timeout)), answer⟩ : Event Sockets) ∈ tr ∧
    ∀ i < n, 0 ≤ (guestPollFd (e.pollEntry start i)).1 → ∃ socket bits,
      a.sockets.find (guestPollFd (e.pollEntry start i)).1 = some socket ∧
      fds[i]? = some ⟨socket.rawSocket, guestPollEventsToWindows (guestPollFd (e.pollEntry start i)).2⟩ ∧
      answer.revents[i]? = some bits ∧
      ∀ row ∈ pollConditions, guestRevents (e'.pollEntry start i) &&& row.2 ≠ 0 ↔ bits &&& row.1 ≠ 0

/-- WinSock reports nothing for an entry that is ignored, and for a live one, if anything, one of the conditions. -/
def NamesConditions (start n : Nat) (timeout : Int32) (e : Export) (tr : List (Event Sockets)) : Prop :=
  ∀ fds, ∀ answer : PollAnswer, (⟨.inr (.inr (.wsaPoll fds timeout)), answer⟩ : Event Sockets) ∈ tr →
    ∀ i < n, ∀ bits, answer.revents[i]? = some bits → bits ≠ 0 →
      0 ≤ (guestPollFd (e.pollEntry start i)).1 ∧ ∃ row ∈ pollConditions, bits &&& row.1 ≠ 0

end Windows

namespace PollAux

/-- The count of the array passes its check, ... -/
theorem checkedPollCount_of_le {nfds : Int32} {n : Nat} (hcount : nfds.toInt = n) (hmax : n ≤ maxPollFds) :
    checkedPollCount nfds = .ok n := by
  have hsome : usizeTryFrom nfds = some n := by
    refine usizeTryFrom_eq_some.mpr ⟨by omega, ?_⟩
    unfold Int32.toNatClampNeg
    omega
  unfold checkedPollCount
  rw [hsome]
  exact if_neg (by omega)

/-- ... and so does its length. -/
theorem checkedLen_pollBytes {n : Nat} (hmax : n ≤ maxPollFds) : checkedLen (Int32.ofNat (n * 8)) = .ok (n * 8) := by
  have hpoll : maxPollFds = 16384 := rfl
  have hio : maxIoLen = 16777216 := rfl
  rw [checkedLen_ofNat (by omega), if_neg (by omega)]

/-- The chunks of what was read are the entries of the array. -/
theorem chunks_of_readGuest {e : Export} {fdsPtr : Int32} {n : Nat} {bytes : List UInt8} (hmax : n ≤ maxPollFds)
    (hread : e.readGuest fdsPtr (Int32.ofNat (n * 8)) = .ok bytes) :
    ∃ start, usizeTryFrom fdsPtr = some start ∧ start + 8 * n ≤ e.data.length ∧ chunksExact8 n bytes = records 8 start n e.data := by
  obtain ⟨start, m, hptr, hm, hle, rfl⟩ := Export.readGuest_bytes hread
  rw [checkedLen_pollBytes hmax] at hm
  cases hm
  rw [Nat.mul_comm n 8] at hle ⊢
  exact ⟨start, hptr, hle, by rw [chunksExact8_eq, records_drop_take]⟩

/-- An entry of the array. -/
theorem records_getElem? {start n i : Nat} {data : List UInt8} (hi : i < n) :
    (records 8 start n data)[i]? = some (record 8 start i data) := by
  rw [records, List.getElem?_map, List.getElem?_range hi]
  rfl

/-- `getD` at the index of each entry reads the list off. -/
theorem zipIdx_getD {α β : Type} {d : β} {l : List α} {r : List β} (h : r.length = l.length) :
    (l.zipIdx.map fun entry => r.getD entry.2 d) = r := by
  refine List.ext_getElem? fun i => ?_
  rw [List.getElem?_map, List.getElem?_zipIdx, Nat.zero_add]
  by_cases hi : i < r.length
  · rw [List.getElem?_eq_getElem hi, List.getElem?_eq_getElem (by omega)]
    simp [hi]
  · rw [List.getElem?_eq_none (by omega), List.getElem?_eq_none (by omega)]
    rfl

section
variable {lc : Libc} {e e' : Export} {a : AppState Unix.HostSocket} {fdsPtr nfds timeout : Int32} {start n : Nat}
  {tr : List (Event Unix.Sockets)} {errno : Errno}

open Unix

/-- An error is returned, without a write, and it is `EBADF` if an entry is not in the table. -/
theorem polled_of_errno (hwrites : ∀ ev ∈ tr, ¬IsWrite ev.1)
    (hunknown : (∃ i < n, 0 ≤ (guestPollFd (e.pollEntry start i)).1 ∧ a.sockets.find (guestPollFd (e.pollEntry start i)).1 = none) →
      errno = .ebadf) :
    Polled a start n timeout e tr (.returned (negErrno errno)) e where
  writes ev hev hwrite := absurd hwrite (hwrites ev hev)
  ready := by
    rintro rc ⟨⟩ hrc
    exact absurd (negErrno_lt_zero errno) (Int32.not_lt.mpr hrc)
  unknown h := ⟨by rw [hunknown h], rfl⟩

/-- If every entry was translated, every one that is not negative is in the table. -/
theorem found_of_translated {fds : List PollFd} (h : Translated (pollFdOf a.sockets) (records 8 start n e.data) (.ok fds)) :
    ¬∃ i < n, 0 ≤ (guestPollFd (e.pollEntry start i)).1 ∧ a.sockets.find (guestPollFd (e.pollEntry start i)).1 = none := by
  rintro ⟨i, hi, hpos, hnone⟩
  have hget := h.getElem? i
  have hlen : i < fds.length := by
    rw [h.length, length_records]
    exact hi
  rw [records_getElem? hi, List.getElem?_eq_getElem hlen] at hget
  replace hget : some fds[i] = pollFdOf a.sockets (e.pollEntry start i) := hget
  rw [pollFdOf, if_neg (Int32.not_lt.mpr hpos), hnone] at hget
  cases hget

/-- A lookup is no write. -/
theorem not_isWrite_of_isLookup {E U : Type} {Net : Sig} {c : (GuestMem.sum (SocketSig E U Net)).Cmd} (h : IsLookup c) : ¬IsWrite c := by
  rcases c with c | c | c
  · exact h.elim
  · exact nofun
  · exact nofun

/-- `poll` on Unix. -/
theorem unix_poll (h : PollArray e fdsPtr nfds start n) :
    wp (machine pollKernel) (Unix.poll lc fdsPtr nfds timeout) (fun tr o s' => Polled a start n timeout e tr o s'.1) (e, a, ()) := by
  have hptr : usizeTryFrom fdsPtr = some start := by
    refine usizeTryFrom_eq_some.mpr ⟨by rw [h.ptr]; omega, ?_⟩
    unfold Int32.toNatClampNeg
    rw [h.ptr]
    rfl
  obtain ⟨bytes, hread⟩ := Export.readGuest_of_le h.isMemory hptr (checkedLen_pollBytes h.maxCount)
    (by rw [Nat.mul_comm]; exact h.fits)
  obtain ⟨start', hstart', -, hchunks⟩ := chunks_of_readGuest h.maxCount hread
  cases hptr.symm.trans hstart'
  unfold Unix.poll
  rw [checkedPollCount_of_le h.count h.maxCount]
  simp only [Prog.pure_eq, Prog.ret_bind, wp_bind, wp_readGuest, hread, wpNext_returned, hchunks]
  refine wp_mono (wp_hostPollFds _) ?_
  rintro lookups o s' ⟨rfl, ⟨result, rfl, hresult⟩, hlookups⟩
  have hquiet : ∀ ev ∈ lookups, ¬IsWrite ev.1 := fun ev hev => not_isWrite_of_isLookup (hlookups ev hev)
  cases result with
  | error errno =>
    refine polled_of_errno ?_ fun _ => hresult.1
    simp only [List.cons_append, List.nil_append, List.append_nil, List.forall_mem_cons]
    exact ⟨not_false, hquiet⟩
  | ok fds =>
    have hfound := found_of_translated hresult
    simp only [wpNext_returned, wp_bind, wp_libc]
    intro answer _ hanswer
    split
    · simp only [wp_negLastErrno]
      intro code _ _
      refine polled_of_errno ?_ fun hunknown => absurd hunknown hfound
      simp only [List.cons_append, List.nil_append, List.forall_mem_cons, List.forall_mem_append]
      exact ⟨not_false, hquiet, not_false, not_false, List.forall_mem_nil _⟩
    · rename_i hrc
      replace hanswer : CountsReady (.poll fds timeout) answer := hanswer
      obtain ⟨hlength, hignored, hcount⟩ := hanswer (Int32.not_lt.mp hrc)
      have hn : answer.revents.length = n := by rw [hlength, hresult.length, length_records]
      rw [zipIdx_getD hlength, wp_bind]
      refine wp_mono (wp_writeRevents _ h.isMemory hptr (by rw [hn, Nat.zero_add]; exact h.maxCount)
        (by rw [hn, Nat.zero_add]; exact h.fits)) ?_
      rintro writes o s' ⟨hdone, hall⟩
      obtain ⟨rfl, hwrites⟩ := hall (Nat.le_trans h.maxMemory (by decide))
      have hs' := hdone rfl
      subst hs'
      rw [hn, Nat.zero_add] at hwrites
      have hin : start + 8 * answer.revents.length ≤ e.data.length := by
        rw [hn]
        exact h.fits
      refine ⟨?_, ?_, fun hunknown => absurd hunknown hfound⟩
      · simp only [List.cons_append, List.nil_append, List.append_nil, List.forall_mem_cons, List.forall_mem_append]
        exact ⟨not_false, fun ev hev hwrite => absurd hwrite (hquiet ev hev), not_false, fun ev hev _ => hwrites ev hev⟩
      · rintro rc ⟨⟩ _
        refine ⟨fds, answer, by simp, fun i hi => ?_, ?_⟩
        · obtain ⟨hrevents, hrest⟩ := Export.pollEntry_withRevents h.isMemory hin (hn ▸ hi)
          have hget := hresult.getElem? i
          have hlen : i < fds.length := by omega
          rw [records_getElem? hi, List.getElem?_eq_getElem hlen] at hget
          refine ⟨hrest, ⟨_, hget.symm, List.getElem?_eq_getElem hlen⟩, hrevents, fun hneg => ?_⟩
          have hfd : fds[i].fd < 0 := by
            replace hget : some fds[i] = pollFdOf a.sockets (e.pollEntry start i) := hget
            rw [pollFdOf, if_pos hneg] at hget
            rw [Option.some.inj hget]
            exact hneg
          rw [hignored i fds[i] (List.getElem?_eq_getElem hlen) hfd] at hrevents
          exact (Option.some.inj hrevents).symm
        · rw [hcount, ← hn]
          exact congrArg _ (Export.readyCount_withRevents h.isMemory hin)

end

/-! ### The conditions of WinSock -/

/-- A bit is set in the translation when it belongs to a row whose bits are. -/
theorem translateBits_and (table : List (UInt16 × UInt16)) (bits b : UInt16) :
    Windows.translateBits table bits &&& b ≠ 0 ↔ ∃ row ∈ table, bits &&& row.1 ≠ 0 ∧ row.2 &&& b ≠ 0 := by
  have hor (x y : UInt16) : (x ||| y) &&& b ≠ 0 ↔ x &&& b ≠ 0 ∨ y &&& b ≠ 0 := by
    have hdistrib : (x ||| y) &&& b = (x &&& b) ||| (y &&& b) := UInt16.toBitVec_inj.mp BitVec.and_or_distrib_right
    rw [hdistrib, Ne, UInt16.or_eq_zero_iff, not_and_or]
  -- the bits gathered so far, and those of the rows that are left
  have hfold (acc : UInt16) :
      table.foldl (fun normalized row => if bits &&& row.1 ≠ 0 then normalized ||| row.2 else normalized) acc &&& b ≠ 0 ↔
      acc &&& b ≠ 0 ∨ ∃ row ∈ table, bits &&& row.1 ≠ 0 ∧ row.2 &&& b ≠ 0 := by
    induction table generalizing acc with
    | nil => simp
    | cons row table ih =>
      rw [List.foldl_cons, ih, List.exists_mem_cons_iff]
      split
      · rename_i hrow
        rw [hor, or_assoc]
        simp [hrow]
      · rename_i hrow
        simp [hrow]
  unfold Windows.translateBits
  rw [hfold]
  simp

/-- The rows have different bits of the guest. -/
theorem pollConditions_apart : ∀ r ∈ Windows.pollConditions, ∀ r' ∈ Windows.pollConditions, r.2 &&& r'.2 ≠ 0 ↔ r = r' := by
  have hall : (Windows.pollConditions.all fun r => Windows.pollConditions.all fun r' => (r.2 &&& r'.2 != 0) == (r == r')) = true := rfl
  intro r hr r' hr'
  have hapart := List.all_eq_true.mp (List.all_eq_true.mp hall r hr) r' hr'
  grind

/-- A bit of the guest is set exactly when WinSock reported its condition. -/
theorem toGuest_and {row : UInt16 × UInt16} (hrow : row ∈ Windows.pollConditions) (bits : UInt16) :
    Windows.windowsPollEventsToGuest bits &&& row.2 ≠ 0 ↔ bits &&& row.1 ≠ 0 := by
  refine (translateBits_and Windows.pollConditions bits row.2).trans ?_
  constructor
  · rintro ⟨r, hr, hbits, hand⟩
    rw [← (pollConditions_apart r hr row hrow).mp hand]
    exact hbits
  · intro hbits
    exact ⟨row, hrow, hbits, (pollConditions_apart row hrow row hrow).mpr rfl⟩

/-- There is something for the guest exactly when WinSock reported one of the conditions. -/
theorem toGuest_ne_zero (bits : UInt16) :
    Windows.windowsPollEventsToGuest bits ≠ 0 ↔ ∃ row ∈ Windows.pollConditions, bits &&& row.1 ≠ 0 := by
  have hnonzero : (Windows.pollConditions.all fun r => r.2 &&& 0xffff != 0) = true := rfl
  have hall : ∀ r ∈ Windows.pollConditions, r.2 &&& 0xffff ≠ 0 := by simpa using hnonzero
  have hand : Windows.windowsPollEventsToGuest bits &&& 0xffff = Windows.windowsPollEventsToGuest bits := UInt16.and_neg_one
  rw [← hand]
  refine (translateBits_and Windows.pollConditions bits 0xffff).trans ?_
  constructor
  · rintro ⟨row, hrow, hbits, -⟩
    exact ⟨row, hrow, hbits⟩
  · rintro ⟨row, hrow, hbits⟩
    exact ⟨row, hrow, hbits, hall row hrow⟩

/-- Two lists are related element by element. -/
theorem forall₂_iff_getElem? {α β : Type} {R : α → β → Prop} {l : List α} {r : List β} (h : l.length = r.length) :
    List.Forall₂ R l r ↔ ∀ i < l.length, ∀ a b, l[i]? = some a → r[i]? = some b → R a b := by
  rw [List.forall₂_iff_get]
  constructor
  · rintro ⟨-, hall⟩ i hi a b ha hb
    rw [List.getElem?_eq_getElem hi] at ha
    rw [List.getElem?_eq_getElem (h ▸ hi)] at hb
    cases ha
    cases hb
    exact hall i hi (h ▸ hi)
  · intro hall
    exact ⟨h, fun i hi hi' => hall i hi _ _ (List.getElem?_eq_getElem hi) (List.getElem?_eq_getElem hi')⟩

/-- Two lists of which every entry of the one that counts has one in the other that does: the counts are equal when the converse holds. -/
theorem countP_eq_iff {α β : Type} {p : α → Bool} {q : β → Bool} {l : List α} {r : List β}
    (h : List.Forall₂ (fun a b => p a = true → q b = true) l r) :
    l.countP p = r.countP q ↔ List.Forall₂ (fun a b => q b = true → p a = true) l r := by
  have hle {l : List α} {r : List β} (h : List.Forall₂ (fun a b => p a = true → q b = true) l r) : l.countP p ≤ r.countP q := by
    induction h with
    | nil => exact Nat.le_refl 0
    | cons hab _ ih =>
      rw [List.countP_cons, List.countP_cons]
      split
      · rename_i hp
        rw [if_pos (hab hp)]
        omega
      · omega
  induction h with
  | nil => simp
  | @cons a b l r hab htail ih =>
    have hmono := hle htail
    rw [List.forall₂_cons, List.countP_cons, List.countP_cons]
    refine Iff.trans ?_ (and_congr_right fun _ => ih)
    by_cases hp : p a = true
    · simp [hp, hab hp]
    · by_cases hq : q b = true
      · simp only [hp, hq, if_true]
        simp
        omega
      · simp [hp, hq]

section
variable {e : Export} {a : AppState Windows.HostSocket} {fdsPtr nfds timeout err : Int32} {start n : Nat}
  {entries : List (Bool × Windows.WsaPollFd)} {answer : Windows.PollAnswer}

open Windows

/-- What the import writes for each entry. -/
def writtenRevents (entries : List (Bool × WsaPollFd)) (revents : List UInt16) : List UInt16 :=
  entries.zipIdx.map fun entry => if entry.1.1 then 0 else windowsPollEventsToGuest (revents.getD entry.2 0)

/-- As many are written as there are entries. -/
theorem length_writtenRevents (entries : List (Bool × WsaPollFd)) (revents : List UInt16) :
    (writtenRevents entries revents).length = entries.length := by
  rw [writtenRevents, List.length_map, List.length_zipIdx]

/-- Entry by entry: the entry of the guest, the host's entry and what is written. -/
theorem writtenRevents_getElem? (h : Translated (pollFdOf a.sockets) (records 8 start n e.data) (.ok entries))
    (hlength : answer.revents.length = entries.length) {i : Nat} (hi : i < n) :
    ∃ bits, answer.revents[i]? = some bits ∧
      (writtenRevents entries answer.revents)[i]? =
        some (if (guestPollFd (e.pollEntry start i)).1 < 0 then 0 else windowsPollEventsToGuest bits) ∧
      (0 ≤ (guestPollFd (e.pollEntry start i)).1 → ∃ socket, a.sockets.find (guestPollFd (e.pollEntry start i)).1 = some socket ∧
        (entries.map Prod.snd)[i]? = some ⟨socket.rawSocket, guestPollEventsToWindows (guestPollFd (e.pollEntry start i)).2⟩) := by
  have hlen : i < entries.length := by
    rw [h.length, length_records]
    exact hi
  have hget := h.getElem? i
  rw [records_getElem? hi, List.getElem?_eq_getElem hlen] at hget
  replace hget : some entries[i] = pollFdOf a.sockets (e.pollEntry start i) := hget
  have hbits : i < answer.revents.length := by omega
  refine ⟨answer.revents[i], List.getElem?_eq_getElem hbits, ?_, fun hpos => ?_⟩
  · rw [writtenRevents, List.getElem?_map, List.getElem?_zipIdx, Nat.zero_add, List.getElem?_eq_getElem hlen]
    have hignored : entries[i].1 = decide ((guestPollFd (e.pollEntry start i)).1 < 0) := by
      unfold pollFdOf at hget
      split at hget
      · rename_i hneg
        rw [Option.some.inj hget]
        simp [hneg]
      · rename_i hneg
        obtain ⟨socket, -, hsocket⟩ := Option.map_eq_some_iff.mp hget.symm
        rw [← hsocket]
        simp [hneg]
    simp [hignored, hbits]
  · rw [pollFdOf, if_neg (Int32.not_lt.mpr hpos)] at hget
    obtain ⟨socket, hsocket, hentry⟩ := Option.map_eq_some_iff.mp hget.symm
    refine ⟨socket, hsocket, ?_⟩
    rw [List.getElem?_map, List.getElem?_eq_getElem hlen, ← hentry]
    rfl

/-- The counts agree exactly when nothing that WinSock reports is lost. -/
theorem count_eq_iff (h : Translated (pollFdOf a.sockets) (records 8 start n e.data) (.ok entries))
    (hlength : answer.revents.length = entries.length) :
    (writtenRevents entries answer.revents).countP (· ≠ 0) = answer.revents.countP (· ≠ 0) ↔
      ∀ i < n, ∀ bits, answer.revents[i]? = some bits → bits ≠ 0 →
        0 ≤ (guestPollFd (e.pollEntry start i)).1 ∧ ∃ row ∈ pollConditions, bits &&& row.1 ≠ 0 := by
  have hn : entries.length = n := by rw [h.length, length_records]
  have hwritten := length_writtenRevents entries answer.revents
  -- what is written is not 0 for a live entry with one of the conditions
  have hpoint {i : Nat} {g bits : UInt16} (hi : i < n) (hg : (writtenRevents entries answer.revents)[i]? = some g)
      (hbits : answer.revents[i]? = some bits) :
      g ≠ 0 ↔ 0 ≤ (guestPollFd (e.pollEntry start i)).1 ∧ ∃ row ∈ pollConditions, bits &&& row.1 ≠ 0 := by
    obtain ⟨bits', hbits', hg', -⟩ := writtenRevents_getElem? h hlength hi
    cases hbits.symm.trans hbits'
    cases hg.symm.trans hg'
    rw [← toGuest_ne_zero, ← Int32.not_lt]
    split
    · rename_i hneg
      simp [hneg]
    · rename_i hneg
      simp [hneg]
  have hmono : List.Forall₂ (fun g bits : UInt16 => decide (g ≠ 0) = true → decide (bits ≠ 0) = true)
      (writtenRevents entries answer.revents) answer.revents := by
    refine (forall₂_iff_getElem? (by omega)).mpr fun i hi g bits hg hbits hne => ?_
    obtain ⟨-, row, -, hrow⟩ := (hpoint (by omega) hg hbits).mp (of_decide_eq_true hne)
    refine decide_eq_true fun hzero => hrow ?_
    rw [hzero, UInt16.zero_and]
  refine (countP_eq_iff hmono).trans ((forall₂_iff_getElem? (by omega)).trans ?_)
  constructor
  · intro hall i hi bits hbits hne
    obtain ⟨g, hg⟩ : ∃ g, (writtenRevents entries answer.revents)[i]? = some g := ⟨_, List.getElem?_eq_getElem (by omega)⟩
    exact (hpoint hi hg hbits).mp (of_decide_eq_true (hall i (by omega) g bits hg hbits (decide_eq_true hne)))
  · intro hall i hi g bits hg hbits hne
    exact decide_eq_true ((hpoint (by omega) hg hbits).mpr (hall i (by omega) bits hbits (of_decide_eq_true hne)))

/-- The call to `WSAPoll` in the trace is the one that was made. -/
theorem eq_of_mem_poll {fds fds' : List WsaPollFd} {answer' : PollAnswer} {bytes : Except Errno (List UInt8)} {len : Int32}
    {lookups writes : List (Event Sockets)} (hlookups : ∀ ev ∈ lookups, IsLookup ev.1) (hwrites : ∀ ev ∈ writes, IsWrite ev.1)
    (h : (⟨.inr (.inr (.wsaPoll fds' timeout)), answer'⟩ : Event Sockets) ∈
      ⟨.inl (.readGuest fdsPtr len), bytes⟩ :: (lookups ++ ⟨.inr (.inr (.wsaPoll fds timeout)), answer⟩ :: writes)) :
    fds' = fds ∧ answer' = answer := by
  rcases List.mem_cons.mp h with heq | h
  · cases heq
  · rcases List.mem_append.mp h with h | h
    · exact (hlookups _ h).elim
    · rcases List.mem_cons.mp h with heq | h
      · cases heq
        exact ⟨rfl, rfl⟩
      · exact (hwrites _ h).elim

/-- After the write-back, the number and the fields are right exactly when WinSock names a condition for all it counts. -/
theorem polled_iff_namesConditions {bytes : Except Errno (List UInt8)} {len : Int32} {lookups writes : List (Event Sockets)}
    (hmem : e.IsMemory) (hin : start + 8 * n ≤ e.data.length)
    (hresult : Translated (pollFdOf a.sockets) (records 8 start n e.data) (.ok entries))
    (hlength : answer.revents.length = entries.length) (hcount : answer.rc.toInt = answer.revents.countP (· ≠ 0))
    (hlookups : ∀ ev ∈ lookups, IsLookup ev.1) (hwrites : ∀ ev ∈ writes, IsWrite ev.1) {tr : List (Event Sockets)}
    (htr : tr = ⟨.inl (.readGuest fdsPtr len), bytes⟩ ::
      (lookups ++ ⟨.inr (.inr (.wsaPoll (entries.map Prod.snd) timeout)), answer⟩ :: writes)) :
    Polled a start n timeout e tr answer.rc (e.withRevents start (writtenRevents entries answer.revents)) ↔
      NamesConditions start n timeout e tr := by
  have hentries : entries.length = n := by rw [hresult.length, length_records]
  have hwritten : (writtenRevents entries answer.revents).length = n := (length_writtenRevents _ _).trans hentries
  have hreported := count_eq_iff hresult hlength
  have hready : ((e.withRevents start (writtenRevents entries answer.revents)).readyCount start n : Int) = answer.rc.toInt ↔
      (writtenRevents entries answer.revents).countP (· ≠ 0) = answer.revents.countP (· ≠ 0) := by
    rw [hcount, ← hwritten, Export.readyCount_withRevents hmem (by rw [hwritten]; exact hin)]
    exact Int.ofNat_inj
  constructor
  · intro hpolled fds answer' hpoll
    rw [htr] at hpoll
    cases (eq_of_mem_poll hlookups hwrites hpoll).2
    exact hreported.mp (hready.mp hpolled.count)
  · intro hnames
    have hpoll : (⟨.inr (.inr (.wsaPoll (entries.map Prod.snd) timeout)), answer⟩ : Event Sockets) ∈ tr := by
      rw [htr]
      exact .tail _ (List.mem_append_right _ (.head _))
    refine ⟨hready.mpr (hreported.mpr (hnames _ _ hpoll)), _, answer, hpoll, fun i hi hpos => ?_⟩
    obtain ⟨bits, hbits, hwrote, hlive⟩ := writtenRevents_getElem? hresult hlength hi
    obtain ⟨socket, hsocket, hfd⟩ := hlive hpos
    refine ⟨socket, bits, hsocket, hfd, hbits, fun row hrow => ?_⟩
    rw [(Export.pollEntry_withRevents hmem (by rw [hwritten]; exact hin) (hwritten ▸ hi)).1,
      if_neg (Int32.not_lt.mpr hpos)] at hwrote
    rw [← toGuest_and hrow bits, ← Option.some.inj hwrote]

/-- `poll` on Windows: it is right exactly if WinSock names conditions that the guest knows. -/
theorem windows_poll :
    wp (machine pollWinsock) (Windows.poll fdsPtr nfds timeout)
      (fun tr o s' => ∀ rc, o = .returned rc → 0 ≤ rc →
        (Polled a fdsPtr.toNatClampNeg nfds.toNatClampNeg timeout e tr rc s'.1 ↔
          NamesConditions fdsPtr.toNatClampNeg nfds.toNatClampNeg timeout e tr)) (e, a, err) := by
  have herrno {errno : Errno} {rc : Int32} (h : Outcome.returned (negErrno errno) = .returned rc) (hrc : 0 ≤ rc) : False := by
    cases h
    exact absurd (negErrno_lt_zero errno) (Int32.not_lt.mpr hrc)
  unfold Windows.poll
  cases hn : checkedPollCount nfds with
  | error errno => exact fun rc h hrc => (herrno h hrc).elim
  | ok n =>
    obtain ⟨hnEq, hmax⟩ := eq_of_checkedPollCount hn
    rw [← hnEq]
    simp only [Prog.pure_eq, Prog.ret_bind, wp_bind, wp_readGuest, wpNext_returned]
    cases hread : e.readGuest fdsPtr (Int32.ofNat (n * 8)) with
    | error errno => exact fun rc h hrc => (herrno h hrc).elim
    | ok bytes =>
      obtain ⟨start, hptr, hin, hchunks⟩ := chunks_of_readGuest hmax hread
      rw [← (usizeTryFrom_eq_some.mp hptr).2]
      have hmem := (Export.readGuest_ok hread).1
      simp only [wp_bind, hchunks]
      refine wp_mono (wp_hostPollFds _) ?_
      rintro lookups o s' ⟨rfl, ⟨result, rfl, hresult⟩, hlookups⟩
      cases result with
      | error errno => exact fun rc h hrc => (herrno h hrc).elim
      | ok entries =>
        simp only [wpNext_returned, wp_bind, wp_ws]
        rintro answer err₁ ⟨herr, hready⟩
        split
        · rename_i hrc
          have hne : err₁ ≠ 0 := by simpa [lastError, failed, hrc] using herr
          simp only [wp_negLastSocketErrno]
          rintro code err₂ ⟨⟨rfl, -⟩, -⟩ rc ⟨⟩ hpos
          exact absurd (neg_socketErrno_lt_zero hne) (Int32.not_lt.mpr hpos)
        · rename_i hrc
          obtain ⟨hlength, hcount⟩ := hready.resolve_left hrc
          rw [List.length_map] at hlength
          have hentries : entries.length = n := by rw [hresult.length, length_records]
          have hwritten : (writtenRevents entries answer.revents).length = n := (length_writtenRevents _ _).trans hentries
          rw [wp_bind]
          refine wp_mono (wp_and (wp_writeRevents (writtenRevents entries answer.revents) hmem hptr
            (by rw [hwritten, Nat.zero_add]; exact hmax)
            (by rw [hwritten, Nat.zero_add]; exact hin)) (wp_forall_only (only_writeRevents _ _ _))) ?_
          rintro writes o s' ⟨⟨hdone, -⟩, hwrites⟩
          cases o with
          | panicked =>
            intro _ h
            cases h
          | returned result =>
            rcases result with errno | ⟨⟩
            · exact fun rc h hrc => (herrno h hrc).elim
            · rw [hdone rfl]
              rintro rc ⟨⟩ hpos
              simp only [List.cons_append, List.nil_append, List.append_nil]
              exact polled_iff_namesConditions hmem hin hresult hlength hcount hlookups hwrites rfl

end

end PollAux

open PollAux Unix in
/-- `poll` on Unix, for every array within a memory of at most 1 GiB and every answer of the kernel. -/
theorem polled_unix (lc : Libc) (e : Export) (a : AppState Unix.HostSocket) (fdsPtr nfds timeout : Int32) (start n : Nat)
    (h : PollArray e fdsPtr nfds start n) (tr : List (Event Unix.Sockets)) (o : Outcome Int32)
    (s' : Export × (AppState Unix.HostSocket × Unit))
    (hrun : Runs (machine pollKernel) (Unix.prog lc (.poll fdsPtr nfds timeout)) (e, a, ()) tr o s') :
    Polled a start n timeout e tr o s'.1 := hrun.of_wp (unix_poll h)

namespace PollAux

open Unix

/-! An array of an entry that is ignored and one that is ready. -/

def twoEntries : Export := .memory [255, 255, 255, 255, 1, 0, 7, 7, 0x10, 0x27, 0, 0, 1, 0, 7, 7]

def firstWritten : Export := .memory [255, 255, 255, 255, 1, 0, 0, 0, 0x10, 0x27, 0, 0, 1, 0, 7, 7]

def bothWritten : Export := .memory [255, 255, 255, 255, 1, 0, 0, 0, 0x10, 0x27, 0, 0, 1, 0, 1, 0]

def twoTrace : List (Event Sockets) :=
  [⟨.inl (.readGuest 0 16), .ok twoEntries.data⟩, ⟨.inr (.inl (.sockets (.get 10000))), some ⟨3, 2, 2⟩⟩,
    ⟨.inr (.inr (.poll [⟨-1, 1⟩, ⟨3, 1⟩] 0)), (⟨1, [0, 1]⟩ : PollAnswer)⟩, ⟨.inl (.writeGuest 6 [0, 0]), .ok ()⟩,
    ⟨.inl (.writeGuest 14 [1, 0]), .ok ()⟩]

/-- The run of two entries on Unix, ... -/
theorem runs_two : Runs (machine pollKernel) (Unix.prog linux (.poll 0 2 0)) (twoEntries, oneSocket, ()) twoTrace (.returned 1)
    (bothWritten, oneSocket, ()) := by
  have hready : CountsReady (.poll [⟨-1, 1⟩, ⟨3, 1⟩] 0) (⟨1, [0, 1]⟩ : PollAnswer) := by
    intro _
    refine ⟨rfl, ?_, by decide⟩
    rintro (_ | _ | i) entry ⟨⟩ hneg
    · rfl
    · exact absurd hneg (by decide)
  refine .via (twoEntries, oneSocket, ()) ⟨rfl, rfl⟩ (.via (twoEntries, oneSocket, ()) ⟨⟨rfl, rfl⟩, rfl⟩ ?_)
  refine .via (twoEntries, oneSocket, ()) ⟨⟨hready, rfl⟩, rfl⟩ (.via (firstWritten, oneSocket, ()) ⟨rfl, rfl⟩ ?_)
  exact .via (bothWritten, oneSocket, ()) ⟨rfl, rfl⟩ (.ret _ _)

end PollAux

open PollAux Unix in
/-- An entry that is ignored and one that is ready. -/
theorem polled_unix_two : Polled oneSocket 0 2 0 twoEntries twoTrace (.returned 1) bothWritten :=
  polled_unix linux twoEntries oneSocket 0 2 0 0 2 ⟨trivial, by decide, rfl, rfl, by decide, by decide⟩ twoTrace _ _ runs_two

open PollAux Windows in
/-- When `poll` returns a number on Windows, the guest finds what it finds on Unix exactly if WinSock named the conditions it reported. -/
theorem polled_windows_iff (e : Export) (a : AppState Windows.HostSocket) (fdsPtr nfds timeout err : Int32)
    (tr : List (Event Windows.Sockets)) (rc : Int32) (s' : Export × (AppState Windows.HostSocket × Int32))
    (hrun : Runs (machine pollWinsock) (Windows.prog (.poll fdsPtr nfds timeout)) (e, a, err) tr (.returned rc) s') (hrc : 0 ≤ rc) :
    Polled a fdsPtr.toNatClampNeg nfds.toNatClampNeg timeout e tr rc s'.1 ↔
      NamesConditions fdsPtr.toNatClampNeg nfds.toNatClampNeg timeout e tr := hrun.of_wp windows_poll rc rfl hrc

namespace PollAux

open Windows

/-! The two entries on Windows. -/

/-- A table with one socket. -/
def oneWinSocket : AppState HostSocket := ⟨true, ((FdTable.empty socketFdBase HostSocket).insert ⟨100, 2, 2, 0⟩).2⟩

/-- WinSock reports POLLRDNORM for the live entry and nothing for the one that is ignored. -/
def liveTrace : List (Event Sockets) :=
  [⟨.inl (.readGuest 0 16), .ok twoEntries.data⟩, ⟨.inr (.inl (.sockets (.get 10000))), some ⟨100, 2, 2, 0⟩⟩,
    ⟨.inr (.inr (.wsaPoll [⟨invalidSocket, 0⟩, ⟨100, 0x0300⟩] 0)), (⟨1, [0, 0x0100]⟩ : PollAnswer)⟩, ⟨.inl (.writeGuest 6 [0, 0]), .ok ()⟩,
    ⟨.inl (.writeGuest 14 [1, 0]), .ok ()⟩]

/-- ... and on Windows, ... -/
theorem runs_live : Runs (machine pollWinsock) (Windows.prog (.poll 0 2 0)) (twoEntries, oneWinSocket, 0) liveTrace (.returned 1)
    (bothWritten, oneWinSocket, 0) := by
  have hpoll : pollWinsock 0 (.wsaPoll [⟨invalidSocket, 0⟩, ⟨100, 0x0300⟩] 0) (⟨1, [0, 0x0100]⟩ : PollAnswer) 0 :=
    ⟨.inl rfl, .inr ⟨rfl, by decide⟩⟩
  refine .via (twoEntries, oneWinSocket, 0) ⟨rfl, rfl⟩ (.via (twoEntries, oneWinSocket, 0) ⟨⟨rfl, rfl⟩, rfl⟩ ?_)
  refine .via (twoEntries, oneWinSocket, 0) ⟨⟨hpoll, rfl⟩, rfl⟩ (.via (firstWritten, oneWinSocket, 0) ⟨rfl, rfl⟩ ?_)
  exact .via (bothWritten, oneWinSocket, 0) ⟨rfl, rfl⟩ (.ret _ _)

/-- ... where all that is reported has a name. -/
theorem named_live : NamesConditions 0 2 0 twoEntries liveTrace := by
  intro fds answer hpoll i hi bits hbits hne
  have hanswer : answer = ⟨1, [0, 0x0100]⟩ := by
    simp only [liveTrace, List.mem_cons, List.not_mem_nil, or_false] at hpoll
    rcases hpoll with h | h | h | h | h <;> cases h
    rfl
  subst hanswer
  rcases i with _ | _ | i
  · exact absurd (Option.some.inj hbits).symm hne
  · cases hbits
    exact ⟨by decide, (0x0300, 0x01), by decide, by decide⟩
  · omega

end PollAux

open PollAux Windows in
/-- An entry that is ignored and one that is ready. -/
theorem polled_windows_two : Polled oneWinSocket 0 2 0 twoEntries liveTrace 1 bothWritten :=
  (polled_windows_iff twoEntries oneWinSocket 0 2 0 0 liveTrace 1 _ runs_live (by decide)).mpr named_live

namespace PollAux

open Windows

/-! An array of one entry, which is to be ignored. -/

def ignoredEntry : Export := .memory [255, 255, 255, 255, 1, 0, 0, 0]

/-- No sockets. -/
def emptyTable : AppState HostSocket := ⟨true, .empty socketFdBase HostSocket⟩

/-- WinSock reports POLLNVAL for the entry. -/
def ignoredTrace : List (Event Sockets) :=
  [⟨.inl (.readGuest 0 8), .ok ignoredEntry.data⟩, ⟨.inr (.inr (.wsaPoll [⟨invalidSocket, 0⟩] 0)), (⟨1, [4]⟩ : PollAnswer)⟩,
    ⟨.inl (.writeGuest 6 [0, 0]), .ok ()⟩]

/-- The run of an entry that is ignored. -/
theorem runs_ignored : Runs (machine pollWinsock) (Windows.prog (.poll 0 1 0)) (ignoredEntry, emptyTable, 0) ignoredTrace (.returned 1)
    (ignoredEntry, emptyTable, 0) := by
  have hpoll : pollWinsock 0 (.wsaPoll [⟨invalidSocket, 0⟩] 0) (⟨1, [4]⟩ : PollAnswer) 0 := ⟨.inl rfl, .inr ⟨rfl, by decide⟩⟩
  refine .via (ignoredEntry, emptyTable, 0) ⟨rfl, rfl⟩ (.via (ignoredEntry, emptyTable, 0) ⟨⟨hpoll, rfl⟩, rfl⟩ ?_)
  exact .via (ignoredEntry, emptyTable, 0) ⟨rfl, rfl⟩ (.ret _ _)

end PollAux

open PollAux Windows in
/-- WinSock reports POLLNVAL for the entry that is ignored: 1 is returned, and no entry has `revents`. -/
theorem not_polled_windows : ¬∀ (e : Export) (a : AppState Windows.HostSocket) (fdsPtr nfds timeout err : Int32) tr rc s',
    Runs (machine pollWinsock) (Windows.prog (.poll fdsPtr nfds timeout)) (e, a, err) tr (.returned rc) s' → 0 ≤ rc →
      Polled a fdsPtr.toNatClampNeg nfds.toNatClampNeg timeout e tr rc s'.1 := by
  intro h
  have hcount := (h ignoredEntry emptyTable 0 1 0 0 _ _ _ runs_ignored (by decide)).count
  exact absurd hcount (by decide)

end WasmtimeMysql
