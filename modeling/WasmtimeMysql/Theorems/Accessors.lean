import WasmtimeMysql.Lemmas.Frame

/-!
# The two branches of the guest memory accessors

Every accessor has a branch for an owned memory and one for a shared memory, which goes cell by cell. On a memory that does not change
meanwhile the two answer the same and leave the same bytes, and `read_cstr` returns a string exactly when there is one
(`accessors_agree`).

An address is an `i32`. The accessors take a negative one for a fault, so the upper half of a memory larger than 2 GiB is out of their
reach; below it every address is as good as any other (`addresses`).
-/

namespace WasmtimeMysql

open Effects Bytes

/-! ## Strings -/

/-- The address is one of the memory's. -/
def InBounds (data : List UInt8) (ptr : Int32) : Prop := 0 ≤ ptr ∧ ptr.toNatClampNeg < data.length

instance (data : List UInt8) (ptr : Int32) : Decidable (InBounds data ptr) := inferInstanceAs (Decidable (_ ∧ _))

/-- The first NUL from the address on is `n` bytes away, and that is less than the longest path. -/
def NulAfter (data : List UInt8) (ptr : Int32) (n : Nat) : Prop :=
  n < maxPathLen ∧ data[ptr.toNatClampNeg + n]? = some 0 ∧ ∀ i < n, data[ptr.toNatClampNeg + i]? ≠ some 0

/-- The `n` bytes from the address on are the UTF-8 encoding of the string. -/
def EncodedAt (data : List UInt8) (ptr : Int32) (n : Nat) (s : List Char) : Prop :=
  s.utf8Encode.data.toList = (data.drop ptr.toNatClampNeg).take n

namespace AccessorsAux

/-- What is decoded is what encodes to the bytes, ... -/
theorem fromUtf8_eq_some_iff {bytes : List UInt8} {s : List Char} : fromUtf8 bytes = some s ↔ s.utf8Encode.data.toList = bytes := by
  unfold fromUtf8
  constructor
  · intro h
    obtain ⟨chars, hdecode, rfl⟩ := Option.map_eq_some_iff.mp h
    have hsome : (ByteArray.mk bytes.toArray).utf8Decode?.isSome = true := by rw [hdecode]; rfl
    have hget : (ByteArray.mk bytes.toArray).utf8Decode?.get hsome = chars := Option.get_of_eq_some hsome hdecode
    have hencode := ByteArray.utf8Encode_get_utf8Decode? (h := hsome)
    rw [hget] at hencode
    rw [hencode]
  · rintro rfl
    have hbytes : ByteArray.mk s.utf8Encode.data.toList.toArray = s.utf8Encode := rfl
    rw [hbytes, List.utf8Decode?_utf8Encode]
    rfl

/-- ... and where nothing is decoded nothing does. -/
theorem fromUtf8_eq_none_iff {bytes : List UInt8} : fromUtf8 bytes = none ↔ ∀ s : List Char, s.utf8Encode.data.toList ≠ bytes := by
  rw [Option.eq_none_iff_forall_ne_some]
  exact forall_congr' fun s => not_congr fromUtf8_eq_some_iff

/-- The loop pushes the cells before the first NUL. -/
theorem pushUntilNul_eq (bytes cells : List UInt8) : pushUntilNul bytes cells = (cells.idxOf? 0).map fun n => bytes ++ cells.take n := by
  induction cells generalizing bytes with
  | nil => rfl
  | cons cell cells ih =>
    rw [pushUntilNul, List.idxOf?_cons]
    by_cases hcell : cell = 0
    · rw [if_pos hcell, if_pos (beq_iff_eq.mpr hcell), Option.map_some, List.take_zero, List.append_nil]
    · rw [if_neg hcell, if_neg (by rwa [beq_iff_eq]), ih]
      cases cells.idxOf? 0 with
      | none => rfl
      | some n => simp

/-- The cells that `read_cstr` looks at. -/
def window (data : List UInt8) (start : Nat) : List UInt8 :=
  (data.take (min (min (start + maxPathLen) (2 ^ 64 - 1)) data.length)).drop start

section
variable {data : List UInt8} {start n : Nat}

/-- The slice that is searched is the window behind the pointer, ... -/
theorem drop_take_eq_window :
    (data.take (min (min (start + maxPathLen) (2 ^ 64 - 1)) data.length)).drop start = window data start := rfl

/-- ... with the bytes of memory in it. -/
theorem window_getElem? (hstart : start < 2 ^ 31) (i : Nat) :
    (window data start)[i]? = if i < maxPathLen then data[start + i]? else none := by
  have hmax : maxPathLen = 16384 := rfl
  unfold window
  rw [List.getElem?_drop, List.getElem?_take]
  by_cases hi : i < maxPathLen
  · rw [if_pos hi]
    by_cases hlength : start + i < data.length
    · rw [if_pos (by omega)]
    · rw [if_neg (by omega), List.getElem?_eq_none (by omega)]
  · rw [if_neg hi, if_neg (by omega)]

/-- The bytes before a NUL in the window are the bytes of the memory. -/
theorem take_window (hn : n < maxPathLen) (hstart : start < 2 ^ 31) :
    (window data start).take n = (data.drop start).take n := by
  refine List.ext_getElem? fun i => ?_
  rw [List.getElem?_take, List.getElem?_take, window_getElem? hstart, List.getElem?_drop]
  by_cases hi : i < n
  · rw [if_pos hi, if_pos hi, if_pos (by omega)]
  · rw [if_neg hi, if_neg hi]

end

section
variable {data : List UInt8} {ptr : Int32} {n : Nat}

/-- A pointer is an `i32`. -/
theorem toNatClampNeg_lt (ptr : Int32) : ptr.toNatClampNeg < 2 ^ 31 := by
  have := ptr.toInt_lt
  unfold Int32.toNatClampNeg
  omega

/-- The first zero of the window is the end of the string, ... -/
theorem idxOf?_window : (window data ptr.toNatClampNeg).idxOf? 0 = some n ↔ NulAfter data ptr n := by
  have hget (i : Nat) : (window data ptr.toNatClampNeg)[i]? = if i < maxPathLen then data[ptr.toNatClampNeg + i]? else none :=
    window_getElem? (toNatClampNeg_lt ptr) i
  rw [List.idxOf?_eq_some_iff]
  constructor
  · rintro ⟨hn, hzero, hbefore⟩
    have hat : (window data ptr.toNatClampNeg)[n]? = some 0 := by rw [List.getElem?_eq_getElem hn, hzero]
    rw [hget] at hat
    split at hat
    · rename_i hmax
      refine ⟨hmax, hat, ?_⟩
      intro i hi hnul
      have hati := hget i
      rw [if_pos (by omega), hnul, List.getElem?_eq_getElem (by omega)] at hati
      exact hbefore i hi (Option.some.inj hati)
    · cases hat
  · rintro ⟨hmax, hat, hbefore⟩
    have hwindow : (window data ptr.toNatClampNeg)[n]? = some 0 := by rw [hget, if_pos hmax, hat]
    obtain ⟨hn, hzero⟩ := List.getElem?_eq_some_iff.mp hwindow
    refine ⟨hn, hzero, ?_⟩
    intro i hi hnul
    have hati := hget i
    rw [List.getElem?_eq_getElem (by omega), hnul, if_pos (by omega)] at hati
    exact hbefore i hi hati.symm

/-- ... and where it has none there is no string. -/
theorem idxOf?_window_eq_none : (window data ptr.toNatClampNeg).idxOf? 0 = none ↔ ∀ n, ¬NulAfter data ptr n := by
  rw [Option.eq_none_iff_forall_ne_some]
  exact forall_congr' fun n => not_congr idxOf?_window

/-- There is one first NUL at most. -/
theorem nulAfter_unique {m : Nat} (h : NulAfter data ptr n) (h' : NulAfter data ptr m) : n = m := by
  rcases Nat.lt_trichotomy n m with hlt | heq | hgt
  · exact absurd h.2.1 (h'.2.2 n hlt)
  · exact heq
  · exact absurd h'.2.1 (h.2.2 m hgt)

end

/-! ### What each branch comes to -/

section
variable (data : List UInt8) (ptr : Int32)

/-- What `read_cstr` answers, in one expression for both branches. -/
def cstr : Except Errno (List Char) :=
  if InBounds data ptr then
    match (window data ptr.toNatClampNeg).idxOf? 0 with
    | none => .error .enametoolong
    | some n =>
      match fromUtf8 ((data.drop ptr.toNatClampNeg).take n) with
      | some path => .ok path
      | none => .error .einval
  else .error .efault

/-- A pointer that is not negative is a `usize`, ... -/
theorem usizeTryFrom_of_nonneg {ptr : Int32} (h : 0 ≤ ptr) : usizeTryFrom ptr = some ptr.toNatClampNeg := if_neg (Int32.not_lt.mpr h)

/-- ... and a negative one is not. -/
theorem usizeTryFrom_of_neg {ptr : Int32} (h : ¬0 ≤ ptr) : usizeTryFrom ptr = none := if_pos (Int32.not_le.mp h)

/-- `read_cstr` on a memory of the main instance ... -/
theorem readCstr_memory : (Export.memory data).readCstr ptr = cstr data ptr := by
  unfold Export.readCstr cstr
  by_cases hptr : 0 ≤ ptr
  · rw [usizeTryFrom_of_nonneg hptr]
    by_cases hlength : ptr.toNatClampNeg < data.length
    · have hbounds : InBounds data ptr := ⟨hptr, hlength⟩
      dsimp only
      rewrite [if_neg (Nat.not_le.mpr hlength), if_pos hbounds, drop_take_eq_window]
      cases (window data ptr.toNatClampNeg).idxOf? 0 with
      | none => rfl
      | some n =>
        dsimp only
        rewrite [List.drop_take, Nat.add_sub_cancel_left]
        cases fromUtf8 ((data.drop ptr.toNatClampNeg).take n) <;> rfl
    · simp only [if_pos (Nat.not_lt.mp hlength), if_neg (fun h : InBounds data ptr => hlength h.2)]
  · rw [usizeTryFrom_of_neg hptr, if_neg fun h : InBounds data ptr => hptr h.1]

/-- ... and on a shared one, where it copies first. -/
theorem readCstr_sharedMemory : (Export.sharedMemory data).readCstr ptr = cstr data ptr := by
  unfold Export.readCstr cstr
  by_cases hptr : 0 ≤ ptr
  · rw [usizeTryFrom_of_nonneg hptr]
    by_cases hlength : ptr.toNatClampNeg < data.length
    · have hbounds : InBounds data ptr := ⟨hptr, hlength⟩
      dsimp only
      rewrite [if_neg (Nat.not_le.mpr hlength), if_pos hbounds, drop_take_eq_window, pushUntilNul_eq]
      cases hnul : (window data ptr.toNatClampNeg).idxOf? 0 with
      | none => rfl
      | some n =>
        have hafter := idxOf?_window.mp hnul
        dsimp only [Option.map_some]
        rewrite [List.nil_append, take_window hafter.1 (toNatClampNeg_lt ptr)]
        cases fromUtf8 ((data.drop ptr.toNatClampNeg).take n) <;> rfl
    · simp only [if_pos (Nat.not_lt.mp hlength), if_neg (fun h : InBounds data ptr => hlength h.2)]
  · rw [usizeTryFrom_of_neg hptr, if_neg fun h : InBounds data ptr => hptr h.1]

/-- Which answer `read_cstr` gives. -/
theorem cstr_spec :
    (∀ s, cstr data ptr = .ok s ↔ InBounds data ptr ∧ ∃ n, NulAfter data ptr n ∧ EncodedAt data ptr n s) ∧
    (cstr data ptr = .error .enametoolong ↔ InBounds data ptr ∧ ∀ n, ¬NulAfter data ptr n) ∧
    (cstr data ptr = .error .einval ↔ InBounds data ptr ∧ ∃ n, NulAfter data ptr n ∧ ∀ s, ¬EncodedAt data ptr n s) ∧
    (cstr data ptr = .error .efault ↔ ¬InBounds data ptr) := by
  unfold cstr
  by_cases hbounds : InBounds data ptr
  · rw [if_pos hbounds]
    cases hnul : (window data ptr.toNatClampNeg).idxOf? 0 with
    | none =>
      have hnone := idxOf?_window_eq_none.mp hnul
      refine ⟨?_, ?_, ?_, ?_⟩
      · intro s
        exact ⟨nofun, fun ⟨_, n, hn, _⟩ => absurd hn (hnone n)⟩
      · exact ⟨fun _ => ⟨hbounds, hnone⟩, fun _ => rfl⟩
      · exact ⟨nofun, fun ⟨_, n, hn, _⟩ => absurd hn (hnone n)⟩
      · exact ⟨nofun, fun h => absurd hbounds h⟩
    | some n =>
      have hn := idxOf?_window.mp hnul
      -- the first NUL is the only one there is
      have hfirst {P : Nat → Prop} : (InBounds data ptr ∧ ∃ m, NulAfter data ptr m ∧ P m) ↔ P n := by
        constructor
        · rintro ⟨-, m, hm, hP⟩
          rw [nulAfter_unique hn hm]
          exact hP
        · intro hP
          exact ⟨hbounds, n, hn, hP⟩
      simp only [hfirst]
      cases hdecode : fromUtf8 ((data.drop ptr.toNatClampNeg).take n) with
      | some path =>
        have hpath : EncodedAt data ptr n path := fromUtf8_eq_some_iff.mp hdecode
        refine ⟨?_, ?_, ?_, ?_⟩
        · intro s
          constructor
          · rintro ⟨⟩
            exact hpath
          · intro hs
            rw [Option.some.inj (hdecode.symm.trans (fromUtf8_eq_some_iff.mpr hs))]
        · exact ⟨nofun, fun h => absurd hn (h.2 n)⟩
        · exact ⟨nofun, fun h => absurd hpath (h path)⟩
        · exact ⟨nofun, fun h => absurd hbounds h⟩
      | none =>
        have hnone : ∀ s, ¬EncodedAt data ptr n s := fromUtf8_eq_none_iff.mp hdecode
        refine ⟨?_, ?_, ?_, ?_⟩
        · intro s
          exact ⟨nofun, fun hs => absurd hs (hnone s)⟩
        · exact ⟨nofun, fun h => absurd hn (h.2 n)⟩
        · exact ⟨fun _ => hnone, fun _ => rfl⟩
        · exact ⟨nofun, fun h => absurd hbounds h⟩
  · rw [if_neg hbounds]
    refine ⟨?_, ?_, ?_, ?_⟩
    · intro s
      exact ⟨nofun, fun h => absurd h.1 hbounds⟩
    · exact ⟨nofun, fun h => absurd h.1 hbounds⟩
    · exact ⟨nofun, fun h => absurd h.1 hbounds⟩
    · exact ⟨fun _ => hbounds, fun _ => rfl⟩

/-- `read_guest` does the same on both. -/
theorem readGuest_sharedMemory (len : Int32) : (Export.sharedMemory data).readGuest ptr len = (Export.memory data).readGuest ptr len := by
  simp only [Export.readGuest, pushCells_eq]

/-- Cell by cell or as a block, a write leaves the same bytes. -/
theorem writeGuest_sharedMemory (bytes : List UInt8) :
    (Export.sharedMemory data).writeAnswer ptr bytes = (Export.memory data).writeAnswer ptr bytes ∧
      ((Export.sharedMemory data).afterWrite ptr bytes).data = ((Export.memory data).afterWrite ptr bytes).data := by
  simp only [Export.writeAnswer, Export.afterWrite, Export.handle, Export.writeGuest]
  cases hrange : writeRange ptr bytes data.length with
  | error errno => exact ⟨rfl, rfl⟩
  | ok range => exact ⟨rfl, setCells_eq_overwrite (writeRange_ok hrange).2.1⟩

end

end AccessorsAux

open AccessorsAux in
/-- On every memory the shared-memory branch and the owned-memory branch of each accessor answer the same, and a write leaves the same
bytes. `read_cstr` returns a string exactly when the address is in bounds, a NUL comes within the length of a path and before the end of
memory, and the bytes before the first one encode the string; without such a NUL the error is `ENAMETOOLONG`, and `EINVAL` when the bytes
encode nothing. -/
theorem accessors_agree (data : List UInt8) (ptr : Int32) :
    (∀ len, (Export.sharedMemory data).readGuest ptr len = (Export.memory data).readGuest ptr len) ∧
    (∀ bytes, (Export.sharedMemory data).writeAnswer ptr bytes = (Export.memory data).writeAnswer ptr bytes ∧
      ((Export.sharedMemory data).afterWrite ptr bytes).data = ((Export.memory data).afterWrite ptr bytes).data) ∧
    (Export.sharedMemory data).readCstr ptr = (Export.memory data).readCstr ptr ∧
    (∀ s, (Export.memory data).readCstr ptr = .ok s ↔ InBounds data ptr ∧ ∃ n, NulAfter data ptr n ∧ EncodedAt data ptr n s) ∧
    ((Export.memory data).readCstr ptr = .error .enametoolong ↔ InBounds data ptr ∧ ∀ n, ¬NulAfter data ptr n) ∧
    ((Export.memory data).readCstr ptr = .error .einval ↔
      InBounds data ptr ∧ ∃ n, NulAfter data ptr n ∧ ∀ s, ¬EncodedAt data ptr n s) ∧
    ((Export.memory data).readCstr ptr = .error .efault ↔ ¬InBounds data ptr) := by
  rw [readCstr_sharedMemory, readCstr_memory]
  exact ⟨readGuest_sharedMemory data ptr, writeGuest_sharedMemory data ptr, rfl, cstr_spec data ptr⟩

/-! ## Addresses -/

namespace AccessorsAux

/-- The `i32` with the bits of an address. -/
theorem toInt_toInt32 (a : UInt32) : a.toInt32.toInt = if a.toNat < 2 ^ 31 then (a.toNat : Int) else a.toNat - 2 ^ 32 := by
  show a.toBitVec.toInt = _
  rw [BitVec.toInt_eq_toNat_cond]
  have hnat : a.toBitVec.toNat = a.toNat := rfl
  rw [hnat]
  by_cases ha : a.toNat < 2 ^ 31
  · rw [if_pos (by omega), if_pos ha]
  · rw [if_neg (by omega), if_neg ha]
    rfl

section
variable {a : UInt32}

/-- A pointer below `2^31` is the address, ... -/
theorem usizeTryFrom_of_low (ha : a.toNat < 2 ^ 31) : usizeTryFrom a.toInt32 = some a.toNat := by
  have htoInt := toInt_toInt32 a
  rw [if_pos ha] at htoInt
  refine usizeTryFrom_eq_some.mpr ⟨by omega, ?_⟩
  unfold Int32.toNatClampNeg
  rw [htoInt]
  rfl

/-- The upper half of the addresses is negative. -/
theorem usizeTryFrom_of_high (ha : 2 ^ 31 ≤ a.toNat) : usizeTryFrom a.toInt32 = none := by
  have hlt := a.toNat_lt
  have htoInt := toInt_toInt32 a
  rw [if_neg (by omega)] at htoInt
  refine usizeTryFrom_of_neg ?_
  rw [Int32.le_iff_toInt_le, htoInt, show (0 : Int32).toInt = 0 from rfl]
  omega

/-- ... one from there on is refused, ... -/
theorem checkedRange_of_high (ha : 2 ^ 31 ≤ a.toNat) (len : Int32) (size : Nat) : checkedRange a.toInt32 len size = .error .efault := by
  unfold checkedRange
  rw [usizeTryFrom_of_high ha]

/-- ... and below it a range is checked against the memory. -/
theorem checkedRange_of_low (ha : a.toNat < 2 ^ 31) {n : Nat} (hn : n ≤ maxIoLen) (size : Nat) :
    checkedRange a.toInt32 (Int32.ofNat n) size = if a.toNat + n ≤ size then .ok (a.toNat, a.toNat + n) else .error .efault := by
  have hio : maxIoLen = 16777216 := rfl
  unfold checkedRange
  rw [usizeTryFrom_of_low ha, checkedLen_ofNat (by omega), if_neg (by omega)]
  dsimp only
  rw [if_neg (by omega)]
  by_cases hsize : a.toNat + n ≤ size
  · rw [if_neg (by omega), if_pos hsize]
  · rw [if_pos (by omega), if_neg hsize]

/-- `read_cstr` faults exactly outside the memory, and on every negative address. -/
theorem readCstr_efault {e : Export} (he : e.IsMemory) :
    e.readCstr a.toInt32 = .error .efault ↔ 2 ^ 31 ≤ a.toNat ∨ e.data.length ≤ a.toNat := by
  have hcstr : e.readCstr a.toInt32 = cstr e.data a.toInt32 := by
    cases e with
    | missing => exact he.elim
    | other => exact he.elim
    | memory data => exact readCstr_memory data a.toInt32
    | sharedMemory data => exact readCstr_sharedMemory data a.toInt32
  rw [hcstr, (cstr_spec e.data a.toInt32).2.2.2]
  by_cases ha : a.toNat < 2 ^ 31
  · obtain ⟨hpos, hnat⟩ := eq_of_usizeTryFrom (usizeTryFrom_of_low ha)
    unfold InBounds
    rw [← hnat]
    constructor
    · intro hout
      right
      exact Nat.not_lt.mp fun hlt => hout ⟨hpos, hlt⟩
    · rintro (hhigh | hend) ⟨-, hlt⟩
      · omega
      · omega
  · refine ⟨fun _ => .inl (Nat.not_lt.mp ha), fun _ hbounds => ?_⟩
    have hnone := usizeTryFrom_of_high (Nat.not_lt.mp ha)
    rw [usizeTryFrom_of_nonneg hbounds.1] at hnone
    cases hnone

/-- The address of the `revents` of an entry, as the import computes it in `i32`. -/
theorem reventsPtr_toInt32 {i : Nat} (hi : i < maxPollFds) (hin : a.toNat + i * 8 + 6 < 2 ^ 32) :
    a.toInt32 + Int32.ofNat i * 8 + 6 = (UInt32.ofNat (a.toNat + i * 8 + 6)).toInt32 := by
  have hnat : (UInt32.ofNat (a.toNat + i * 8 + 6)).toNat = a.toNat + i * 8 + 6 := UInt32.toNat_ofNat_of_lt' hin
  rw [← Int32.toInt_inj, toInt_reventsPtr a.toInt32 hi, toInt_toInt32, toInt_toInt32, hnat, Int.bmod_def]
  split <;> split <;> split <;> omega

/-- The sum is the address of the field below 2 GiB, and a fault from there on. -/
theorem usizeTryFrom_reventsPtr {i p : Nat} (hi : i < maxPollFds) (hin : a.toNat + i * 8 + 6 < 2 ^ 32) :
    usizeTryFrom (a.toInt32 + Int32.ofNat i * 8 + 6) = some p ↔ a.toNat + i * 8 + 6 < 2 ^ 31 ∧ p = a.toNat + i * 8 + 6 := by
  have hnat : (UInt32.ofNat (a.toNat + i * 8 + 6)).toNat = a.toNat + i * 8 + 6 := UInt32.toNat_ofNat_of_lt' hin
  rw [reventsPtr_toInt32 hi hin]
  by_cases hlow : a.toNat + i * 8 + 6 < 2 ^ 31
  · rw [usizeTryFrom_of_low (by omega), hnat, Option.some_inj]
    exact ⟨fun h => ⟨hlow, h.symm⟩, fun h => h.2.symm⟩
  · rw [usizeTryFrom_of_high (by omega)]
    exact ⟨nofun, fun h => absurd h.1 hlow⟩

end

end AccessorsAux

open AccessorsAux in
/-- A range is accepted exactly when it starts at an address below 2 GiB and ends within the memory, and it is then the range of these
addresses; every address from 2 GiB on is a fault, whatever the memory. `read_cstr` faults at those and at the addresses outside the
memory only. The place where `poll` writes the `revents` of an entry is the entry's below 2 GiB, and a fault from there on. -/
theorem addresses (a : UInt32) :
    (∀ size n, n ≤ maxIoLen → ∀ range, checkedRange a.toInt32 (Int32.ofNat n) size = .ok range ↔
      a.toNat < 2 ^ 31 ∧ a.toNat + n ≤ size ∧ range = (a.toNat, a.toNat + n)) ∧
    (2 ^ 31 ≤ a.toNat → ∀ size len, checkedRange a.toInt32 len size = .error .efault) ∧
    (∀ e : Export, e.IsMemory → (e.readCstr a.toInt32 = .error .efault ↔ 2 ^ 31 ≤ a.toNat ∨ e.data.length ≤ a.toNat)) ∧
    ∀ i < maxPollFds, a.toNat + i * 8 + 6 < 2 ^ 32 → ∀ p, usizeTryFrom (a.toInt32 + Int32.ofNat i * 8 + 6) = some p ↔
      a.toNat + i * 8 + 6 < 2 ^ 31 ∧ p = a.toNat + i * 8 + 6 := by
  refine ⟨?_, ?_, fun e he => readCstr_efault he, fun i hi hin p => usizeTryFrom_reventsPtr hi hin⟩
  · intro size n hn range
    by_cases ha : a.toNat < 2 ^ 31
    · rw [checkedRange_of_low ha hn]
      by_cases hsize : a.toNat + n ≤ size
      · rw [if_pos hsize]
        constructor
        · rintro ⟨⟩
          exact ⟨ha, hsize, rfl⟩
        · rintro ⟨-, -, rfl⟩
          rfl
      · rw [if_neg hsize]
        exact ⟨nofun, fun h => absurd h.2.1 hsize⟩
    · rw [checkedRange_of_high (Nat.not_lt.mp ha)]
      exact ⟨nofun, fun h => absurd h.1 ha⟩
  · intro ha size len
    exact checkedRange_of_high ha len size

/-- In a memory of 4 GiB the address at 2 GiB is within bounds, and no range starts there, not even an empty one. -/
theorem address_refused : (0x80000000 : UInt32).toNat + 0 ≤ 2 ^ 32 ∧
    checkedRange (0x80000000 : UInt32).toInt32 (Int32.ofNat 0) (2 ^ 32) = .error .efault := by
  decide

end WasmtimeMysql
