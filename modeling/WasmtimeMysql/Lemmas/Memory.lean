import WasmtimeMysql.GuestMemory

/-!
# What a write does to guest memory

A write that succeeds changes the bytes it covers and nothing else, in an owned and in a shared memory alike; a write that fails
changes nothing.
-/

namespace WasmtimeMysql

open Bytes

/-- The export is a memory, owned or shared. -/
def Export.IsMemory : Export → Prop
  | .memory _ => True
  | .sharedMemory _ => True
  | .missing => False
  | .other => False

/-- The export with its bytes changed. -/
def Export.mapData (f : List UInt8 → List UInt8) : Export → Export
  | .memory data => .memory (f data)
  | .sharedMemory data => .sharedMemory (f data)
  | .missing => .missing
  | .other => .other

theorem Export.data_mapData {e : Export} (h : e.IsMemory) (f : List UInt8 → List UInt8) : (e.mapData f).data = f e.data := by
  cases e with
  | memory data => rfl
  | sharedMemory data => rfl
  | missing => exact h.elim
  | other => exact h.elim

theorem Export.mapData_mapData (e : Export) (f g : List UInt8 → List UInt8) : (e.mapData f).mapData g = e.mapData (g ∘ f) := by
  cases e <;> rfl

theorem Export.mapData_id (e : Export) : e.mapData id = e := by cases e <;> rfl

theorem Export.isMemory_mapData {e : Export} (f : List UInt8 → List UInt8) : (e.mapData f).IsMemory ↔ e.IsMemory := by
  cases e <;> rfl

/-! ## Ranges -/

theorem checkedLen_le {len : Int32} {n : Nat} (h : checkedLen len = .ok n) : n ≤ maxIoLen := by
  unfold checkedLen at h
  split at h
  · cases h
  · split at h
    · cases h
    · cases h
      omega

/-- What a range that is accepted is. -/
theorem checkedRange_ok {ptr len : Int32} {memoryLen : Nat} {range : Nat × Nat} (h : checkedRange ptr len memoryLen = .ok range) :
    usizeTryFrom ptr = some range.1 ∧ ∃ n, checkedLen len = .ok n ∧ range.2 = range.1 + n ∧ range.1 + n ≤ memoryLen := by
  unfold checkedRange at h
  split at h
  · cases h
  · rename_i start' hptr
    split at h
    · cases h
    · rename_i n hlen
      split at h
      · cases h
      · split at h
        · cases h
        · cases h
          exact ⟨hptr, n, hlen, rfl, by omega⟩

/-- The number of bytes given to a write fits its `i32`, and is the length the range is checked for. -/
theorem checkedLen_ofNat {n : Nat} (hn : n < 2 ^ 31) : checkedLen (Int32.ofNat n) = if n > maxIoLen then .error .einval else .ok n := by
  have hto : (Int32.ofNat n).toInt = n := Int32.toInt_ofNat_of_lt (by simpa using hn)
  have hpos : ¬Int32.ofNat n < 0 := by
    rw [Int32.lt_iff_toInt_lt, hto]
    simp
  have hnat : (Int32.ofNat n).toNatClampNeg = n := by
    rw [Int32.toNatClampNeg, hto]
    rfl
  simp only [checkedLen, usizeTryFrom, if_neg hpos, hnat]

/-- What the range of a write that is accepted is. -/
theorem writeRange_ok {ptr : Int32} {bytes : List UInt8} {memoryLen : Nat} {range : Nat × Nat}
    (h : writeRange ptr bytes memoryLen = .ok range) :
    usizeTryFrom ptr = some range.1 ∧ range.1 + bytes.length ≤ memoryLen ∧ bytes.length ≤ maxIoLen := by
  unfold writeRange i32TryFromUsize at h
  split at h
  · cases h
  · rename_i len hlen
    split at hlen
    · rename_i hlt
      cases hlen
      obtain ⟨hptr, n, hn, -, hle⟩ := checkedRange_ok h
      rw [checkedLen_ofNat hlt] at hn
      split at hn
      · cases hn
      · cases hn
        exact ⟨hptr, hle, by omega⟩
    · cases hlen

/-- ... and every such range is accepted. -/
theorem writeRange_of_le {ptr : Int32} {bytes : List UInt8} {memoryLen start : Nat} (hptr : usizeTryFrom ptr = some start)
    (hmax : bytes.length ≤ maxIoLen) (hle : start + bytes.length ≤ memoryLen) :
    ∃ range, writeRange ptr bytes memoryLen = .ok range ∧ range.1 = start := by
  have hio : maxIoLen = 16777216 := rfl
  have hlt : bytes.length < 2 ^ 31 := by omega
  have hstart : start < 2 ^ 31 := by
    unfold usizeTryFrom at hptr
    split at hptr
    · cases hptr
    · cases hptr
      have := ptr.toInt_lt
      unfold Int32.toNatClampNeg
      omega
  refine ⟨(start, start + bytes.length), ?_, rfl⟩
  simp only [writeRange, i32TryFromUsize, if_pos hlt, checkedRange, hptr, checkedLen_ofNat hlt]
  rw [if_neg (by omega)]
  simp only
  rw [if_neg (by omega), if_neg (by omega)]

/-! ## Writes -/

/-- A write that succeeds overwrites the bytes from its address on. -/
theorem Export.writeGuest_ok {e e' : Export} {ptr : Int32} {bytes : List UInt8} (h : e.writeGuest ptr bytes = .ok e') :
    ∃ start, usizeTryFrom ptr = some start ∧ start + bytes.length ≤ e.data.length ∧ bytes.length ≤ maxIoLen ∧ e.IsMemory ∧
      e' = e.mapData (overwrite · start bytes) := by
  cases e with
  | missing => cases h
  | other => cases h
  | memory data =>
    cases hr : writeRange ptr bytes data.length with
    | error errno => simp [Export.writeGuest, hr, Except.map] at h
    | ok range =>
      obtain ⟨hptr, hle, hmax⟩ := writeRange_ok hr
      simp only [Export.writeGuest, hr, Except.map] at h
      cases h
      exact ⟨range.1, hptr, hle, hmax, trivial, rfl⟩
  | sharedMemory data =>
    cases hr : writeRange ptr bytes data.length with
    | error errno => simp [Export.writeGuest, hr, Except.map] at h
    | ok range =>
      obtain ⟨hptr, hle, hmax⟩ := writeRange_ok hr
      simp only [Export.writeGuest, hr, Except.map] at h
      cases h
      refine ⟨range.1, hptr, hle, hmax, trivial, ?_⟩
      rw [setCells_eq_overwrite hle]
      rfl

/-- A write to a memory succeeds when it fits. -/
theorem Export.writeGuest_of_le {e : Export} {ptr : Int32} {bytes : List UInt8} {start : Nat} (he : e.IsMemory)
    (hptr : usizeTryFrom ptr = some start) (hmax : bytes.length ≤ maxIoLen) (hle : start + bytes.length ≤ e.data.length) :
    ∃ e', e.writeGuest ptr bytes = .ok e' := by
  obtain ⟨range, hrange, -⟩ := writeRange_of_le hptr hmax hle
  cases e with
  | missing => exact he.elim
  | other => exact he.elim
  | memory data => exact ⟨_, by rw [Export.writeGuest, show writeRange ptr bytes data.length = .ok range from hrange]; rfl⟩
  | sharedMemory data => exact ⟨_, by rw [Export.writeGuest, show writeRange ptr bytes data.length = .ok range from hrange]; rfl⟩

/-- A read that succeeds is of a memory that holds the range. -/
theorem Export.readGuest_ok {e : Export} {ptr len : Int32} {bytes : List UInt8} (h : e.readGuest ptr len = .ok bytes) :
    e.IsMemory ∧ ∃ start n, usizeTryFrom ptr = some start ∧ checkedLen len = .ok n ∧ start + n ≤ e.data.length := by
  cases e with
  | missing => cases h
  | other => cases h
  | memory data =>
    cases hr : checkedRange ptr len data.length with
    | error errno => simp [Export.readGuest, hr, Except.map] at h
    | ok range =>
      obtain ⟨hptr, n, hn, -, hle⟩ := checkedRange_ok hr
      exact ⟨trivial, range.1, n, hptr, hn, hle⟩
  | sharedMemory data =>
    cases hr : checkedRange ptr len data.length with
    | error errno => simp [Export.readGuest, hr, Except.map] at h
    | ok range =>
      obtain ⟨hptr, n, hn, -, hle⟩ := checkedRange_ok hr
      exact ⟨trivial, range.1, n, hptr, hn, hle⟩

/-- Pushing cells one by one gives the cells. -/
theorem pushCells_eq (cells : List UInt8) : pushCells cells = cells := by
  have hfold (pre : List UInt8) : cells.foldl (fun bytes cell => bytes ++ [cell]) pre = pre ++ cells := by
    induction cells generalizing pre with
    | nil => exact (List.append_nil pre).symm
    | cons cell cells ih => rw [List.foldl_cons, ih, List.append_assoc, List.singleton_append]
  exact hfold []

/-- A read returns as many bytes as it was asked for. -/
theorem Export.checkedLen_of_readGuest {e : Export} {ptr len : Int32} {bytes : List UInt8} (h : e.readGuest ptr len = .ok bytes) :
    checkedLen len = .ok bytes.length := by
  -- both kinds of memory return the same cells
  have hcells {data : List UInt8} {range : Nat × Nat} (hr : checkedRange ptr len data.length = .ok range) :
      checkedLen len = .ok ((data.take range.2).drop range.1).length := by
    obtain ⟨-, n, hn, hend, hle⟩ := checkedRange_ok hr
    have hlength : ((data.take range.2).drop range.1).length = n := by
      rw [List.length_drop, List.length_take, hend]
      omega
    rw [hlength]
    exact hn
  cases e with
  | missing => cases h
  | other => cases h
  | memory data =>
    cases hr : checkedRange ptr len data.length with
    | error errno => simp [Export.readGuest, hr, Except.map] at h
    | ok range =>
      simp only [Export.readGuest, hr, Except.map, Except.ok.injEq] at h
      rw [← h]
      exact hcells hr
  | sharedMemory data =>
    cases hr : checkedRange ptr len data.length with
    | error errno => simp [Export.readGuest, hr, Except.map] at h
    | ok range =>
      simp only [Export.readGuest, hr, Except.map, Except.ok.injEq, pushCells_eq] at h
      rw [← h]
      exact hcells hr

/-- What a read returns. -/
theorem Export.readGuest_bytes {e : Export} {ptr len : Int32} {bytes : List UInt8} (h : e.readGuest ptr len = .ok bytes) :
    ∃ start n, usizeTryFrom ptr = some start ∧ checkedLen len = .ok n ∧ start + n ≤ e.data.length ∧
      bytes = (e.data.take (start + n)).drop start := by
  have hrange {data : List UInt8} {range : Nat × Nat} (hr : checkedRange ptr len data.length = .ok range) :
      ∃ start n, usizeTryFrom ptr = some start ∧ checkedLen len = .ok n ∧ start + n ≤ data.length ∧
        (data.take range.2).drop range.1 = (data.take (start + n)).drop start := by
    obtain ⟨hptr, n, hn, hend, hle⟩ := checkedRange_ok hr
    exact ⟨range.1, n, hptr, hn, hle, by rw [hend]⟩
  cases e with
  | missing => cases h
  | other => cases h
  | memory data =>
    cases hr : checkedRange ptr len data.length with
    | error errno => simp [Export.readGuest, hr, Except.map] at h
    | ok range =>
      simp only [Export.readGuest, hr, Except.map, Except.ok.injEq] at h
      rw [← h]
      exact hrange hr
  | sharedMemory data =>
    cases hr : checkedRange ptr len data.length with
    | error errno => simp [Export.readGuest, hr, Except.map] at h
    | ok range =>
      simp only [Export.readGuest, hr, Except.map, Except.ok.injEq, pushCells_eq] at h
      rw [← h]
      exact hrange hr

/-- A read of a range of memory succeeds. -/
theorem Export.readGuest_of_le {e : Export} {ptr len : Int32} {start n : Nat} (he : e.IsMemory) (hptr : usizeTryFrom ptr = some start)
    (hlen : checkedLen len = .ok n) (hle : start + n ≤ e.data.length) : ∃ bytes, e.readGuest ptr len = .ok bytes := by
  have hlt : start + n < 2 ^ 64 := by
    have hmax := checkedLen_le hlen
    have hio : maxIoLen = 16777216 := rfl
    unfold usizeTryFrom at hptr
    split at hptr
    · cases hptr
    · cases hptr
      have := ptr.toInt_lt
      unfold Int32.toNatClampNeg
      omega
  have hrange : checkedRange ptr len e.data.length = .ok (start, start + n) := by
    simp only [checkedRange, hptr, hlen]
    rw [if_neg (by omega), if_neg (by omega)]
  cases e with
  | missing => exact he.elim
  | other => exact he.elim
  | memory data => exact ⟨_, by rw [Export.readGuest, show checkedRange ptr len data.length = _ from hrange]; rfl⟩
  | sharedMemory data => exact ⟨_, by rw [Export.readGuest, show checkedRange ptr len data.length = _ from hrange]; rfl⟩

/-! ## As an import sees it -/

/-- The word at a guest address. -/
def Export.readU32 (e : Export) (ptr : Int32) : Except Errno UInt32 :=
  (e.readGuest ptr 4).map fun bytes => UInt32.ofNat (ofLeBytes bytes)

theorem Export.readGuest_of_readU32 {e : Export} {ptr : Int32} {word : UInt32} (h : e.readU32 ptr = .ok word) :
    ∃ bytes, e.readGuest ptr 4 = .ok bytes := by
  cases hread : e.readGuest ptr 4 with
  | error errno => simp [Export.readU32, hread, Except.map] at h
  | ok bytes => exact ⟨bytes, rfl⟩

/-- The memory after a write, which is the memory before it when the write fails. -/
def Export.afterWrite (e : Export) (ptr : Int32) (bytes : List UInt8) : Export := (e.handle (.writeGuest ptr bytes)).2

/-- What a write answers. -/
def Export.writeAnswer (e : Export) (ptr : Int32) (bytes : List UInt8) : Except Errno Unit :=
  (e.handle (.writeGuest ptr bytes)).1

/-- A write succeeds and overwrites its range, or fails and leaves the memory alone. -/
theorem Export.write_cases (e : Export) (ptr : Int32) (bytes : List UInt8) :
    (e.writeAnswer ptr bytes = .ok () ∧ ∃ start, usizeTryFrom ptr = some start ∧ start + bytes.length ≤ e.data.length ∧
      e.IsMemory ∧ e.afterWrite ptr bytes = e.mapData (overwrite · start bytes)) ∨
    ((∃ errno, e.writeAnswer ptr bytes = .error errno) ∧ e.afterWrite ptr bytes = e) := by
  cases h : e.writeGuest ptr bytes with
  | error errno =>
    have hh : e.handle (.writeGuest ptr bytes) = (.error errno, e) := by simp [Export.handle, h]
    exact .inr ⟨⟨errno, congrArg Prod.fst hh⟩, congrArg Prod.snd hh⟩
  | ok e' =>
    have hh : e.handle (.writeGuest ptr bytes) = (.ok (), e') := by simp [Export.handle, h]
    obtain ⟨start, hptr, hle, -, he, rfl⟩ := Export.writeGuest_ok h
    exact .inl ⟨congrArg Prod.fst hh, start, hptr, hle, he, congrArg Prod.snd hh⟩

/-- A write to a range of memory succeeds. -/
theorem Export.writeAnswer_of_le {e : Export} {ptr : Int32} {bytes : List UInt8} {start : Nat} (he : e.IsMemory)
    (hptr : usizeTryFrom ptr = some start) (hmax : bytes.length ≤ maxIoLen) (hle : start + bytes.length ≤ e.data.length) :
    e.writeAnswer ptr bytes = .ok () := by
  obtain ⟨e', h⟩ := Export.writeGuest_of_le he hptr hmax hle
  simp [Export.writeAnswer, Export.handle, h]

/-- No write changes the size of the memory. -/
theorem Export.length_data_afterWrite (e : Export) (ptr : Int32) (bytes : List UInt8) :
    (e.afterWrite ptr bytes).data.length = e.data.length := by
  rcases e.write_cases ptr bytes with ⟨-, start, -, hle, he, heq⟩ | ⟨-, heq⟩
  · rw [heq, Export.data_mapData he, length_overwrite hle]
  · rw [heq]

/-- ... or whether it is one. -/
theorem Export.isMemory_afterWrite (e : Export) (ptr : Int32) (bytes : List UInt8) :
    (e.afterWrite ptr bytes).IsMemory ↔ e.IsMemory := by
  rcases e.write_cases ptr bytes with ⟨-, start, -, -, -, heq⟩ | ⟨-, heq⟩
  · rw [heq, Export.isMemory_mapData]
  · rw [heq]

/-! ## Room for a write -/

theorem eq_of_usizeTryFrom {x : Int32} {n : Nat} (h : usizeTryFrom x = some n) : 0 ≤ x ∧ n = x.toNatClampNeg := by
  unfold usizeTryFrom at h
  split at h
  · cases h
  · rename_i hneg
    cases h
    exact ⟨Int32.not_lt.mp hneg, rfl⟩

/-- The guest's memory takes a write of `n` bytes at the address. -/
def Export.Room (e : Export) (ptr : Int32) (n : Nat) : Prop :=
  e.IsMemory ∧ 0 ≤ ptr ∧ ptr.toNatClampNeg + n ≤ e.data.length ∧ n ≤ maxIoLen

theorem Export.Room.mono {e : Export} {ptr : Int32} {n m : Nat} (h : e.Room ptr n) (hm : m ≤ n) : e.Room ptr m := by
  obtain ⟨he, hptr, hle, hmax⟩ := h
  exact ⟨he, hptr, by omega, by omega⟩

/-- A write succeeds where there is room, and only there. -/
theorem Export.writeAnswer_cases (e : Export) (ptr : Int32) (bytes : List UInt8) :
    (e.Room ptr bytes.length ∧ e.writeAnswer ptr bytes = .ok ()) ∨
      (¬e.Room ptr bytes.length ∧ ∃ errno, e.writeAnswer ptr bytes = .error errno) := by
  cases h : e.writeGuest ptr bytes with
  | error errno =>
    refine .inr ⟨?_, errno, by simp [Export.writeAnswer, Export.handle, h]⟩
    rintro ⟨he, hptr, hle, hmax⟩
    obtain ⟨e', hok⟩ := Export.writeGuest_of_le he (if_neg (Int32.not_lt.mpr hptr)) hmax hle
    rw [h] at hok
    cases hok
  | ok e' =>
    obtain ⟨start, hptr, hle, hmax, he, -⟩ := Export.writeGuest_ok h
    obtain ⟨hnonneg, rfl⟩ := eq_of_usizeTryFrom hptr
    exact .inl ⟨⟨he, hnonneg, hle, hmax⟩, by simp [Export.writeAnswer, Export.handle, h]⟩

/-- No write makes or takes room. -/
theorem Export.room_afterWrite {e : Export} {ptr' : Int32} {bytes : List UInt8} {ptr : Int32} {n : Nat} :
    (e.afterWrite ptr' bytes).Room ptr n ↔ e.Room ptr n := by
  unfold Export.Room
  rw [Export.isMemory_afterWrite, Export.length_data_afterWrite]

/-- A word that can be read can be written. -/
theorem Export.room_of_readU32 {e : Export} {ptr : Int32} {word : UInt32} (h : e.readU32 ptr = .ok word) : e.Room ptr 4 := by
  obtain ⟨bytes, hread⟩ := Export.readGuest_of_readU32 h
  obtain ⟨he, start, n, hptr, hn, hle⟩ := Export.readGuest_ok hread
  obtain ⟨hnonneg, rfl⟩ := eq_of_usizeTryFrom hptr
  cases hn
  exact ⟨he, hnonneg, hle, by decide⟩

/-! ## Ranges that have no byte in common -/

/-- Two ranges of guest memory have no byte in common. -/
def RangesApart (ptr : Int32) (n : Nat) (ptr' : Int32) (n' : Nat) : Prop :=
  ptr.toNatClampNeg + n ≤ ptr'.toNatClampNeg ∨ ptr'.toNatClampNeg + n' ≤ ptr.toNatClampNeg

/-- A range that there is room for can be read. -/
theorem Export.readGuest_of_room {e : Export} {ptr : Int32} {n : Nat} (h : e.Room ptr n) :
    e.readGuest ptr (Int32.ofNat n) = .ok ((e.data.take (ptr.toNatClampNeg + n)).drop ptr.toNatClampNeg) := by
  obtain ⟨he, hptr, hle, hmax⟩ := h
  have hio : maxIoLen = 16777216 := rfl
  have hstart : usizeTryFrom ptr = some ptr.toNatClampNeg := if_neg (Int32.not_lt.mpr hptr)
  have hlen : checkedLen (Int32.ofNat n) = .ok n := by
    rw [checkedLen_ofNat (by omega), if_neg (by omega)]
  obtain ⟨bytes, hread⟩ := Export.readGuest_of_le he hstart hlen hle
  obtain ⟨start, m, hstart', hlen', -, rfl⟩ := Export.readGuest_bytes hread
  cases hstart.symm.trans hstart'
  cases hlen.symm.trans hlen'
  exact hread

/-- What was written can be read. -/
theorem Export.readGuest_afterWrite {e : Export} {ptr : Int32} {bytes : List UInt8} (h : e.Room ptr bytes.length) :
    (e.afterWrite ptr bytes).readGuest ptr (Int32.ofNat bytes.length) = .ok bytes := by
  rw [Export.readGuest_of_room (Export.room_afterWrite.mpr h)]
  rcases e.write_cases ptr bytes with ⟨-, start, hstart, hle, he, heq⟩ | ⟨⟨errno, herror⟩, -⟩
  · obtain ⟨-, rfl⟩ := eq_of_usizeTryFrom hstart
    rw [heq, Export.data_mapData he, drop_take_overwrite hle]
  · rcases e.writeAnswer_cases ptr bytes with ⟨-, hok⟩ | ⟨hno, -⟩
    · cases herror.symm.trans hok
    · exact absurd h hno

/-- A range that can be read has room, and its length is the one that was asked for. -/
theorem Export.room_of_readGuest {e : Export} {ptr len : Int32} {data : List UInt8} (h : e.readGuest ptr len = .ok data) :
    e.Room ptr data.length ∧ len = Int32.ofNat data.length := by
  have hlen := Export.checkedLen_of_readGuest h
  obtain ⟨he, start, n, hstart, hn, hle⟩ := Export.readGuest_ok h
  obtain ⟨hptr, rfl⟩ := eq_of_usizeTryFrom hstart
  cases hlen.symm.trans hn
  refine ⟨⟨he, hptr, hle, checkedLen_le hlen⟩, ?_⟩
  unfold checkedLen at hlen
  split at hlen
  · cases hlen
  · rename_i hsize
    obtain ⟨hnonneg, rfl⟩ := eq_of_usizeTryFrom hsize
    split at hlen
    · cases hlen
    · rw [← Except.ok.inj hlen, Int32.ofNat_toNatClampNeg _ hnonneg]

/-- A range that a write has no byte of is read as before. -/
theorem Export.readGuest_afterWrite_apart {e : Export} {ptr len ptr' : Int32} {data bytes : List UInt8} (h : e.readGuest ptr len = .ok data)
    (hapart : RangesApart ptr data.length ptr' bytes.length) : (e.afterWrite ptr' bytes).readGuest ptr len = .ok data := by
  obtain ⟨hroom, rfl⟩ := Export.room_of_readGuest h
  rw [Export.readGuest_of_room hroom] at h
  rw [Export.readGuest_of_room (Export.room_afterWrite.mpr hroom), ← h]
  rcases e.write_cases ptr' bytes with ⟨-, start, hstart, hle, he, heq⟩ | ⟨-, heq⟩
  · obtain ⟨-, rfl⟩ := eq_of_usizeTryFrom hstart
    rw [heq, Export.data_mapData he, drop_take_overwrite_of_apart hle hapart]
  · rw [heq]

end WasmtimeMysql
