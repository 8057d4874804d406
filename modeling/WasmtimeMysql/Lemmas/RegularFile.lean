import WasmtimeMysql.Lemmas.FileWp
import WasmtimeMysql.Lemmas.Results

/-!
# A regular file under the two hosts

What std documents of the calls that `pread`, `pwrite`, `seek`, `truncate` and `close` make, for one regular file: `read_at` and `write_at`
of Unix leave the cursor alone and refuse a negative offset; `seek_read` and `seek_write` of Windows leave the cursor at the end of what they
transferred, and a write at the offset `2^64 - 1` is a write to the end of the file. A volume has room for files up to some size. What ends
there is transferred in full; beyond it, and where std says nothing, a call may fail, transfer less or do anything else.

`GuestFile.step` is what the five imports are for: a file with a cursor that only `seek` moves. Each import does that on both hosts, as long
as it stays within the room, its offsets are not negative and no seek depends on where `pread` or `pwrite` has left the cursor
(`wp_unix_import`, `wp_windows_import`).
-/

namespace WasmtimeMysql

open Effects Bytes

/-! ## The file -/

/-- A regular file that is open: its content and its cursor. -/
structure OsFile where
  content : List UInt8
  cursor : Nat
  deriving DecidableEq, Repr

/-- The bytes that a read finds. -/
def dataAt (content : List UInt8) (len offset : Nat) : List UInt8 := (content.drop offset).take len

/-- The content after a write. What lies between the end and the offset is zero, and a write of nothing changes nothing. -/
def writtenAt (content buf : List UInt8) (offset : Nat) : List UInt8 :=
  if buf = [] then content else overwrite (content ++ List.replicate (offset - content.length) 0) offset buf

/-- The content after a change of its length. -/
def resized (content : List UInt8) (size : Nat) : List UInt8 := content.take size ++ List.replicate (size - content.length) 0

/-- The position that a seek asks for. -/
def OsFile.target (f : OsFile) : SeekFrom → Int
  | .start offset => offset.toNat
  | .current offset => f.cursor + offset.toInt
  | .fromEnd offset => f.content.length + offset.toInt

/-- The greatest `i64`. -/
def maxOffset : Nat := 2 ^ 63 - 1

/-- Where the file is: up to which size a file may be there. -/
structure Volume where
  room : Nat
  room_le : room ≤ maxOffset

/-- A position that is not negative and that there is room for. -/
def Volume.Has (vol : Volume) (pos : Int) : Prop := 0 ≤ pos ∧ pos ≤ vol.room

instance (vol : Volume) (pos : Int) : Decidable (vol.Has pos) := inferInstanceAs (Decidable (_ ∧ _))

/-- The file after a seek. -/
def OsFile.sought (f : OsFile) (pos : SeekFrom) : OsFile := { f with cursor := (f.target pos).toNat }

/-- A seek to a position that there is no room for fails or succeeds. -/
def OsFile.SeeksBeyond (f : OsFile) (pos : SeekFrom) (r : Except IoError UInt64) (f' : OsFile) : Prop :=
  ((∃ err, r = .error err) ∧ f' = f) ∨ (f.target pos ≤ maxOffset ∧ r = .ok (UInt64.ofInt (f.target pos)) ∧ f' = f.sought pos)

/-- The calls to std's files on Unix. -/
def Unix.regularFile (lc : Libc) (vol : Volume) : Machine (Fs Str) OsFile
  | f, .readAt _ len offset, r, f' =>
    f' = f ∧
    (offset.toNat + len ≤ vol.room → r = .ok ⟨(dataAt f.content len offset.toNat).length, dataAt f.content len offset.toNat⟩) ∧
    (offset.toNat > maxOffset → r = .error ⟨some lc.einval⟩)
  | f, .writeAt _ buf offset, r, f' =>
    (offset.toNat + buf.length ≤ vol.room → r = .ok buf.length ∧ f' = { f with content := writtenAt f.content buf offset.toNat }) ∧
    (offset.toNat > maxOffset → r = .error ⟨some lc.einval⟩ ∧ f' = f)
  | f, .seek _ pos, r, f' =>
    if vol.Has (f.target pos) then r = .ok (UInt64.ofInt (f.target pos)) ∧ f' = f.sought pos
    else if f.target pos < 0 then r = .error ⟨some lc.einval⟩ ∧ f' = f
    else f.SeeksBeyond pos r f'
  | f, .setLen _ size, r, f' => size.toNat ≤ vol.room → r = .ok () ∧ f' = { f with content := resized f.content size.toNat }
  | f, _, _, f' => f' = f

/-- The calls to std's files on Windows. Where a call that transfers nothing leaves the cursor is not documented. -/
def Windows.regularFile (vol : Volume) : Machine (Fs WinPath) OsFile
  | f, .readAt _ len offset, r, f' =>
    f'.content = f.content ∧ (offset.toNat + len ≤ vol.room →
      r = .ok ⟨(dataAt f.content len offset.toNat).length, dataAt f.content len offset.toNat⟩ ∧
      (dataAt f.content len offset.toNat ≠ [] → f'.cursor = offset.toNat + (dataAt f.content len offset.toNat).length))
  | f, .writeAt _ buf offset, r, f' =>
    (offset.toNat + buf.length ≤ vol.room → r = .ok buf.length ∧ f'.content = writtenAt f.content buf offset.toNat ∧
      (buf ≠ [] → f'.cursor = offset.toNat + buf.length)) ∧
    (offset.toNat = 2 ^ 64 - 1 → f.content.length + buf.length ≤ vol.room → r = .ok buf.length ∧ f'.content = f.content ++ buf ∧
      (buf ≠ [] → f'.cursor = f.content.length + buf.length))
  | f, .seek _ pos, r, f' =>
    if vol.Has (f.target pos) then r = .ok (UInt64.ofInt (f.target pos)) ∧ f' = f.sought pos
    else if f.target pos < 0 then (∃ err, r = .error err) ∧ f' = f
    else f.SeeksBeyond pos r f'
  | f, .setLen _ size, r, f' => size.toNat ≤ vol.room → r = .ok () ∧ f' = { f with content := resized f.content size.toNat }
  | f, _, _, f' => f' = f

/-- What the two have in common. If `moves`, a positional call may leave the cursor anywhere. -/
structure Regular {P κ : Type} {Host : Sig} (moves : Bool) (vol : Volume) (K : Machine ((Fs P).sum Host) κ) (view : κ → OsFile) : Prop where
  readAt : ∀ k k' file len offset r, K k (.inl (.readAt file len offset)) r k' → offset.toNat + len ≤ vol.room →
    r = .ok ⟨(dataAt (view k).content len offset.toNat).length, dataAt (view k).content len offset.toNat⟩ ∧
    (view k').content = (view k).content ∧ (moves = false → (view k').cursor = (view k).cursor)
  writeAt : ∀ k k' file buf offset r, K k (.inl (.writeAt file buf offset)) r k' → offset.toNat + buf.length ≤ vol.room →
    r = .ok buf.length ∧ (view k').content = writtenAt (view k).content buf offset.toNat ∧
    (moves = false → (view k').cursor = (view k).cursor)
  seek : ∀ k k' file pos r, K k (.inl (.seek file pos)) r k' → vol.Has ((view k).target pos) →
    r = .ok (UInt64.ofInt ((view k).target pos)) ∧ view k' = (view k).sought pos
  seekContent : ∀ k k' file pos r, K k (.inl (.seek file pos)) r k' → (view k').content = (view k).content
  setLen : ∀ k k' file size r, K k (.inl (.setLen file size)) r k' → size.toNat ≤ vol.room →
    r = .ok () ∧ view k' = { view k with content := resized (view k).content size.toNat }
  drop : ∀ k k' file r, K k (.inl (.drop file)) r k' → view k' = view k

/-- A file of Unix is regular, and positional calls leave its cursor alone. -/
theorem regular_unix (lc : Libc) (vol : Volume) :
    Regular false vol ((Unix.regularFile lc vol).sum (.any : Machine Unix.FileHost Unit)) Prod.fst where
  readAt := by
    rintro k k' file len offset r ⟨⟨hk, hr, -⟩, -⟩ hroom
    exact ⟨hr hroom, by rw [hk], fun _ => by rw [hk]⟩
  writeAt := by
    rintro k k' file buf offset r ⟨⟨hm, -⟩, -⟩ hroom
    obtain ⟨hr, hk⟩ := hm hroom
    exact ⟨hr, by rw [hk], fun _ => by rw [hk]⟩
  seek := by
    rintro k k' file pos r ⟨hm, -⟩ hroom
    simp only [Unix.regularFile, if_pos hroom] at hm
    exact hm
  seekContent := by
    rintro k k' file pos r ⟨hm, -⟩
    simp only [Unix.regularFile, OsFile.SeeksBeyond] at hm
    split_ifs at hm
    · rw [hm.2]
      rfl
    · rw [hm.2]
    · rcases hm with ⟨-, hsame⟩ | ⟨-, -, hsought⟩
      · rw [hsame]
      · rw [hsought]
        rfl
  setLen := by
    rintro k k' file size r ⟨hm, -⟩ hroom
    exact hm hroom
  drop := by
    rintro k k' file r ⟨hm, -⟩
    exact hm

/-- A file of Windows is regular, and positional calls move its cursor. -/
theorem regular_windows (vol : Volume) : Regular true vol
    ((Windows.regularFile vol).sum
      ((Machine.det (S := Windows.LockMaps.Sig) Windows.LockMaps.handle).sum (.any : Machine Windows.Win32 Unit))) Prod.fst where
  readAt := by
    rintro k k' file len offset r ⟨⟨hcontent, hr⟩, -⟩ hroom
    exact ⟨(hr hroom).1, hcontent, nofun⟩
  writeAt := by
    rintro k k' file buf offset r ⟨⟨hm, -⟩, -⟩ hroom
    obtain ⟨hr, hcontent, -⟩ := hm hroom
    exact ⟨hr, hcontent, nofun⟩
  seek := by
    rintro k k' file pos r ⟨hm, -⟩ hroom
    simp only [Windows.regularFile, if_pos hroom] at hm
    exact hm
  seekContent := by
    rintro k k' file pos r ⟨hm, -⟩
    simp only [Windows.regularFile, OsFile.SeeksBeyond] at hm
    split_ifs at hm
    · rw [hm.2]
      rfl
    · rw [hm.2]
    · rcases hm with ⟨-, hsame⟩ | ⟨-, -, hsought⟩
      · rw [hsame]
      · rw [hsought]
        rfl
  setLen := by
    rintro k k' file size r ⟨hm, -⟩ hroom
    exact hm hroom
  drop := by
    rintro k k' file r ⟨hm, -⟩
    exact hm

/-! ## What the imports are for -/

/-- The file as the guest knows it: whether its fd is still open, and the file with a cursor that only `seek` moves. -/
structure GuestFile where
  live : Bool
  file : OsFile
  deriving DecidableEq, Repr

/-- What an import returns, and what it leaves of guest memory and of the file. -/
def GuestFile.step (e : Export) (g : GuestFile) : FileImport → Int64 × Export × GuestFile
  | .pread _ bufPtr len offset =>
    match checkedLen len with
    | .error errno => ((negErrno errno).toInt64, e, g)
    | .ok n =>
      if g.live then
        let data := dataAt g.file.content n offset.toNatClampNeg
        if data = [] then (0, e, g)
        else match e.writeAnswer bufPtr data with
          | .ok () => ((Int32.ofNat data.length).toInt64, e.afterWrite bufPtr data, g)
          | .error errno => ((negErrno errno).toInt64, e.afterWrite bufPtr data, g)
      else ((negErrno .ebadf).toInt64, e, g)
  | .pwrite _ bufPtr len offset =>
    match e.readGuest bufPtr len with
    | .error errno => ((negErrno errno).toInt64, e, g)
    | .ok buf =>
      if g.live then
        ((Int32.ofNat buf.length).toInt64, e, { g with file.content := writtenAt g.file.content buf offset.toNatClampNeg })
      else ((negErrno .ebadf).toInt64, e, g)
  | .seek _ offset whence =>
    if g.live then
      match HostFiles.seekFrom offset whence with
      | .error errno => ((negErrno errno).toInt64, e, g)
      | .ok pos => ((UInt64.ofInt (g.file.target pos)).toInt64, e, { g with file.cursor := (g.file.target pos).toNat })
    else ((negErrno .ebadf).toInt64, e, g)
  | .truncate _ size =>
    if size < 0 then ((negErrno .einval).toInt64, e, g)
    else if g.live then (0, e, { g with file.content := resized g.file.content size.toNatClampNeg })
    else ((negErrno .ebadf).toInt64, e, g)
  | .close _ => if g.live then (0, e, { g with live := false }) else ((negErrno .ebadf).toInt64, e, g)
  | _ => (0, e, g)

/-- The five imports on one fd. -/
def FileImport.OnFile (fd : Int32) : FileImport → Prop
  | .pread fd' .. => fd' = fd
  | .pwrite fd' .. => fd' = fd
  | .seek fd' .. => fd' = fd
  | .truncate fd' _ => fd' = fd
  | .close fd' => fd' = fd
  | _ => False

/-- Whether the cursor is where the guest's seeks have put it, after a call on a host whose positional calls move it if `moves`. -/
def cursorAfter (moves known : Bool) : FileImport → Bool
  | .pread .. => known && !moves
  | .pwrite .. => known && !moves
  | .seek _ offset whence => known || whence == seekSet && 0 ≤ offset || whence == seekEnd
  | _ => known

/-- A call stays within the room that there is, its offset is not negative if it is positional, and a seek is not relative to a cursor that is
not known. A negative offset from the start is refused, and so is a negative size. -/
def Steady (vol : Volume) (known : Bool) (f : OsFile) : FileImport → Prop
  | .pread _ _ len offset => 0 ≤ offset ∧ offset.toInt + len.toInt ≤ vol.room
  | .pwrite _ _ len offset => 0 ≤ offset ∧ offset.toInt + len.toInt ≤ vol.room
  | .seek _ offset whence => (whence = seekSet → offset.toInt ≤ vol.room) ∧
    (whence = seekCur → known = true ∧ vol.Has (f.cursor + offset.toInt)) ∧ (whence = seekEnd → vol.Has (f.content.length + offset.toInt))
  | .truncate _ size => size.toInt ≤ vol.room
  | _ => True

section
variable {P κ : Type} {Host : Sig}

/-- The table and the host show the guest's file. -/
structure Shows (fd : Int32) (view : κ → OsFile) (known : Bool) (g : GuestFile) (a : HostFilesInner P) (k : κ) : Prop where
  live : (a.files.find fd).isSome = g.live
  content : (view k).content = g.file.content
  cursor : g.live = true → known = true → (view k).cursor = g.file.cursor

/-- The import has done what it is for. -/
def Did (fd : Int32) (view : κ → OsFile) (known : Bool) (done : Int64 × Export × GuestFile) (o : Outcome Int64)
    (s : Export × (HostFilesInner P × κ)) : Prop :=
  o = .returned done.1 ∧ s.1 = done.2.1 ∧ Shows fd view known done.2.2 s.2.1 s.2.2

namespace RegularAux

variable {moves known : Bool} {vol : Volume} {K : Machine ((Fs P).sum Host) κ} {view : κ → OsFile} {fd : Int32} {g : GuestFile} {e : Export}
  {a : HostFilesInner P} {k k' : κ}

/-- The fd is open, or it is not. -/
theorem find_cases (h : Shows fd view known g a k) :
    (a.files.find fd = none ∧ g.live = false) ∨ ∃ file, a.files.find fd = some file ∧ g.live = true := by
  have hlive := h.live
  cases hfind : a.files.find fd with
  | none =>
    rw [hfind] at hlive
    exact .inl ⟨rfl, hlive.symm⟩
  | some file =>
    rw [hfind] at hlive
    exact .inr ⟨file, rfl, hlive.symm⟩

/-- An offset that is not negative is not clamped. -/
theorem toNat_of_nonneg {offset : Int64} (h : 0 ≤ offset) : offset.toUInt64.toNat = offset.toNatClampNeg :=
  Int64.toNat_toUInt64_of_le h

/-- An offset that is not negative is the same as a `u64`. -/
theorem toNat_eq_toInt {offset : Int64} (h : 0 ≤ offset) : (offset.toUInt64.toNat : Int) = offset.toInt := by
  rw [toNat_of_nonneg h]
  exact Int64.cast_toNatClampNeg offset h

/-- The length that is checked is the one that was asked for. -/
theorem checkedLen_toInt {len : Int32} {n : Nat} (h : checkedLen len = .ok n) : (n : Int) = len.toInt := by
  unfold checkedLen usizeTryFrom at h
  by_cases hneg : len < 0
  · simp only [if_pos hneg] at h
    cases h
  · simp only [if_neg hneg] at h
    split at h
    · cases h
    · cases h
      exact Int32.cast_toNatClampNeg len (Int32.not_lt.mp hneg)

/-- What a call of a given length reaches. -/
theorem end_le_room {vol : Volume} {len : Int32} {offset : Int64} {n : Nat} (hlen : checkedLen len = .ok n)
    (hsteady : 0 ≤ offset ∧ offset.toInt + len.toInt ≤ vol.room) : offset.toUInt64.toNat + n ≤ vol.room := by
  have hoffset := toNat_eq_toInt hsteady.1
  have hn := checkedLen_toInt hlen
  omega

/-- A call that leaves the file alone leaves it shown, if it does not claim to know more of the cursor. -/
theorem Shows.keep (h : Shows fd view known g a k) (hcontent : (view k').content = (view k).content)
    (hcursor : moves = false → (view k').cursor = (view k).cursor) : Shows fd view (known && !moves) g a k' := by
  refine ⟨h.live, hcontent.trans h.content, ?_⟩
  intro hlive hknown
  rw [Bool.and_eq_true, Bool.not_eq_true'] at hknown
  exact (hcursor hknown.2).trans (h.cursor hlive hknown.1)

/-- To know less of the cursor is no change. -/
theorem Shows.forget (h : Shows fd view known g a k) : Shows fd view (known && !moves) g a k :=
  Shows.keep h rfl fun _ => rfl

variable (ioErrno : IoError → Errno)

/-- A read gives no more than was asked for. -/
theorem length_dataAt_le (content : List UInt8) (len offset : Nat) : (dataAt content len offset).length ≤ len := List.length_take_le _ _

/-- What `pread` does with the bytes it was given. -/
theorem take_fill {data : List UInt8} {n : Nat} (h : data.length ≤ n) : (fill n data).take data.length = data := by
  unfold fill
  rw [List.take_of_length_le h, List.take_append_of_le_length (Nat.le_refl _), List.take_length]

/-- What `HostFiles::pread` does. -/
theorem wp_preadFile (hK : Regular moves vol K view) (h : Shows fd view known g a k) {n : Nat} {offset : UInt64} (hn : n ≤ maxIoLen)
    (hroom : offset.toNat + n ≤ vol.room) :
    wp (fileMachine guestMachine K) (HostFiles.preadFile ioErrno fd n offset)
      (fun _ o s => s.1 = e ∧ Shows fd view (known && !moves) g s.2.1 s.2.2 ∧ o = .returned (if g.live then
        (Int32.ofNat (dataAt g.file.content n offset.toNat).length, dataAt g.file.content n offset.toNat) else (negErrno .ebadf, [])))
      (e, a, k) := by
  simp only [HostFiles.preadFile, wp_bind, wp_filesGet, wpNext_returned]
  rcases find_cases h with ⟨hfind, hlive⟩ | ⟨file, hfind, hlive⟩
  · simp only [hfind, hlive]
    exact ⟨rfl, Shows.forget h, rfl⟩
  · simp only [hfind, hlive, wp_bind, wp_fs, wpNext_returned]
    intro r k' hm
    obtain ⟨rfl, hcontent, hcursor⟩ := hK.readAt _ _ _ _ _ _ hm hroom
    have hle : (dataAt g.file.content n offset.toNat).length ≤ n := length_dataAt_le _ _ _
    obtain ⟨hfits, -⟩ := i32TryFromUsize_of_le (Nat.le_trans hle hn)
    rw [h.content]
    simp only [hfits]
    exact ⟨rfl, Shows.keep h hcontent hcursor, rfl⟩

/-- What `HostFiles::pwrite` does. -/
theorem wp_pwriteFile (hK : Regular moves vol K view) (h : Shows fd view known g a k) {buf : List UInt8} {offset : UInt64}
    (hn : buf.length ≤ maxIoLen) (hroom : offset.toNat + buf.length ≤ vol.room) :
    wp (fileMachine guestMachine K) (HostFiles.pwriteFile ioErrno fd buf offset)
      (fun _ o s => s.1 = e ∧
        Shows fd view (known && !moves) (if g.live then { g with file.content := writtenAt g.file.content buf offset.toNat } else g) s.2.1 s.2.2 ∧
        o = .returned (if g.live then Int32.ofNat buf.length else negErrno .ebadf)) (e, a, k) := by
  simp only [HostFiles.pwriteFile, wp_bind, wp_filesGet, wpNext_returned]
  rcases find_cases h with ⟨hfind, hlive⟩ | ⟨file, hfind, hlive⟩
  · simp only [hfind, hlive]
    exact ⟨rfl, Shows.forget h, rfl⟩
  · simp only [hfind, hlive, if_true, wp_bind, wp_fs, wpNext_returned]
    intro r k' hm
    obtain ⟨rfl, hcontent, hcursor⟩ := hK.writeAt _ _ _ _ _ _ hm hroom
    obtain ⟨hfits, -⟩ := i32TryFromUsize_of_le hn
    rw [h.content] at hcontent
    simp only [hfits]
    refine ⟨rfl, ⟨h.live.trans hlive, hcontent, ?_⟩, rfl⟩
    intro _ hknown
    rw [Bool.and_eq_true, Bool.not_eq_true'] at hknown
    exact (hcursor hknown.2).trans (h.cursor hlive hknown.1)

/-- The import `pread`. -/
theorem wp_pread (hK : Regular moves vol K view) (h : Shows fd view known g a k) (bufPtr : Int32) {len : Int32} {offset : Int64}
    (hsteady : 0 ≤ offset ∧ offset.toInt + len.toInt ≤ vol.room) :
    wp (fileMachine guestMachine K) (Int32.toInt64 <$> HostFiles.pread ioErrno fd bufPtr len offset)
      (fun _ => Did fd view (known && !moves) (g.step e (.pread fd bufPtr len offset))) (e, a, k) := by
  rw [wp_map]
  unfold HostFiles.pread
  cases hlen : checkedLen len with
  | error errno =>
    simp only [GuestFile.step, hlen]
    exact ⟨rfl, rfl, Shows.forget h⟩
  | ok n =>
    simp only [wp_bind, wp_alloc, wpNext_returned]
    refine wp_mono (wp_preadFile ioErrno hK h (checkedLen_le hlen) (end_le_room hlen hsteady)) ?_
    rintro tr o ⟨e', a', k'⟩ ⟨rfl, hshows, rfl⟩
    cases hlive : g.live with
    | false =>
      simp only [GuestFile.step, hlen, hlive, wpNext_returned]
      exact ⟨rfl, rfl, hshows⟩
    | true =>
      simp only [if_true, wpNext_returned, toNat_of_nonneg hsteady.1]
      generalize hdata : dataAt g.file.content n offset.toNatClampNeg = data
      have hle : data.length ≤ n := hdata ▸ length_dataAt_le _ _ _
      have hstep : g.step e' (.pread fd bufPtr len offset) = if data = [] then (0, e', g) else match e'.writeAnswer bufPtr data with
          | .ok () => ((Int32.ofNat data.length).toInt64, e'.afterWrite bufPtr data, g)
          | .error errno => ((negErrno errno).toInt64, e'.afterWrite bufPtr data, g) := by
        simp only [GuestFile.step, hlen, hlive, if_true, hdata]
      rw [hstep]
      by_cases hnil : data = []
      · rw [if_pos hnil]
        subst hnil
        exact ⟨rfl, rfl, hshows⟩
      · obtain ⟨hpos, hcount⟩ := ofNat_length_pos (Nat.le_trans hle (checkedLen_le hlen)) hnil
        rw [if_neg hnil, if_neg hpos, wp_bind, wp_sliceTo, hcount, length_fill, if_pos hle, take_fill hle]
        simp only [wpNext_returned, wp_bind, wp_writeGuest]
        cases e'.writeAnswer bufPtr data with
        | ok u => exact ⟨rfl, rfl, hshows⟩
        | error errno => exact ⟨rfl, rfl, hshows⟩

/-- The import `pwrite`. -/
theorem wp_pwrite (hK : Regular moves vol K view) (h : Shows fd view known g a k) (bufPtr : Int32) {len : Int32} {offset : Int64}
    (hsteady : 0 ≤ offset ∧ offset.toInt + len.toInt ≤ vol.room) :
    wp (fileMachine guestMachine K) (Int32.toInt64 <$> HostFiles.pwrite ioErrno fd bufPtr len offset)
      (fun _ => Did fd view (known && !moves) (g.step e (.pwrite fd bufPtr len offset))) (e, a, k) := by
  rw [wp_map]
  simp only [HostFiles.pwrite, wp_bind, wp_readGuest, wpNext_returned]
  cases hread : e.readGuest bufPtr len with
  | error errno =>
    simp only [GuestFile.step, hread]
    exact ⟨rfl, rfl, Shows.forget h⟩
  | ok buf =>
    have hlen := Export.checkedLen_of_readGuest hread
    refine wp_mono (wp_pwriteFile ioErrno hK h (checkedLen_le hlen) (end_le_room hlen hsteady)) ?_
    rintro tr o ⟨e', a', k'⟩ ⟨rfl, hshows, rfl⟩
    rw [toNat_of_nonneg hsteady.1] at hshows
    simp only [GuestFile.step, hread]
    cases hlive : g.live with
    | false =>
      simp only [hlive, Bool.false_eq_true, if_false] at hshows ⊢
      exact ⟨rfl, rfl, hshows⟩
    | true =>
      simp only [hlive, if_true] at hshows ⊢
      exact ⟨rfl, rfl, hshows⟩

/-- The import `truncate`. -/
theorem wp_truncate (hK : Regular moves vol K view) (h : Shows fd view known g a k) {size : Int64}
    (hsteady : size.toInt ≤ vol.room) :
    wp (fileMachine guestMachine K) (Int32.toInt64 <$> HostFiles.truncate ioErrno fd size)
      (fun _ => Did fd view known (g.step e (.truncate fd size))) (e, a, k) := by
  rw [wp_map]
  unfold HostFiles.truncate
  by_cases hsize : size < 0
  · simp only [GuestFile.step, if_pos hsize]
    exact ⟨rfl, rfl, h⟩
  · simp only [if_neg hsize, wp_bind, wp_filesGet, wpNext_returned, GuestFile.step]
    rcases find_cases h with ⟨hfind, hlive⟩ | ⟨file, hfind, hlive⟩
    · simp only [hfind, hlive]
      exact ⟨rfl, rfl, h⟩
    · simp only [hfind, wp_bind, wp_fs, wpNext_returned, hlive, if_true]
      intro r k' hm
      have hnat := toNat_eq_toInt (Int64.not_lt.mp hsize)
      obtain ⟨rfl, hview⟩ := hK.setLen _ _ _ _ _ hm (by omega)
      rw [toNat_of_nonneg (Int64.not_lt.mp hsize), h.content] at hview
      refine ⟨rfl, rfl, h.live.trans hlive, ?_, ?_⟩
      · rw [hview]
      · intro _ hknown
        rw [hview]
        exact h.cursor hlive hknown

/-- A seek that succeeds asks both for the same position. -/
theorem target_of_seekFrom (h : Shows fd view known g a k) (hlive : g.live = true) {offset : Int64} {whence : Int32}
    (hsteady : Steady vol known g.file (.seek fd offset whence)) {pos : SeekFrom} (hpos : HostFiles.seekFrom offset whence = .ok pos) :
    (view k).target pos = g.file.target pos ∧ vol.Has (g.file.target pos) := by
  obtain ⟨hset, hcur, hend⟩ := hsteady
  unfold HostFiles.seekFrom at hpos
  split_ifs at hpos with hwhence hoffset hwhence' hwhence''
  · cases hpos
    have hnat := toNat_eq_toInt (Int64.not_lt.mp hoffset)
    refine ⟨rfl, Int.natCast_nonneg _, ?_⟩
    show (offset.toUInt64.toNat : Int) ≤ vol.room
    rw [hnat]
    exact hset hwhence
  · cases hpos
    obtain ⟨hknown, hroom⟩ := hcur hwhence'
    exact ⟨by simp only [OsFile.target, h.cursor hlive hknown], hroom⟩
  · cases hpos
    exact ⟨by simp only [OsFile.target, h.content], hend hwhence''⟩

/-- A seek that is refused leaves the cursor where it was. -/
theorem cursorAfter_of_error {offset : Int64} {whence : Int32} {errno : Errno} (h : HostFiles.seekFrom offset whence = .error errno) :
    cursorAfter moves known (.seek fd offset whence) = known := by
  unfold HostFiles.seekFrom at h
  split at h
  · split at h
    · rename_i hset hoffset
      have hneg : ¬(0 ≤ offset) := Int64.not_le.mpr hoffset
      simp only [cursorAfter, hset, hneg, decide_false, Bool.and_false, Bool.or_false]
      exact Bool.or_false known
    · cases h
  · rename_i hset
    split at h
    · cases h
    · split at h
      · cases h
      · rename_i hend
        have hset' : (whence == seekSet) = false := beq_eq_false_iff_ne.mpr hset
        have hend' : (whence == seekEnd) = false := beq_eq_false_iff_ne.mpr hend
        simp only [cursorAfter, hset', hend', Bool.false_and, Bool.or_false]

/-- A position that there is room for is an `i64`. -/
theorem toNat_ofInt_lt {pos : Int} (h : vol.Has pos) : (UInt64.ofInt pos).toNat < 2 ^ 63 := by
  obtain ⟨hlow, hhigh⟩ := h
  have hroom := vol.room_le
  have hmax : maxOffset = 2 ^ 63 - 1 := rfl
  unfold UInt64.ofInt
  rw [UInt64.toNat_ofNat']
  omega

/-- The import `seek`. -/
theorem wp_seek (hK : Regular moves vol K view) (h : Shows fd view known g a k) {offset : Int64} {whence : Int32}
    (hsteady : g.live = true → Steady vol known g.file (.seek fd offset whence)) :
    wp (fileMachine guestMachine K) (HostFiles.seek ioErrno fd offset whence)
      (fun _ => Did fd view (cursorAfter moves known (.seek fd offset whence)) (g.step e (.seek fd offset whence))) (e, a, k) := by
  simp only [HostFiles.seek, wp_bind, wp_filesGet, wpNext_returned]
  rcases find_cases h with ⟨hfind, hlive⟩ | ⟨file, hfind, hlive⟩
  · simp only [hfind, GuestFile.step, hlive]
    exact ⟨rfl, rfl, h.live, h.content, fun hopen => by cases hlive.symm.trans hopen⟩
  · simp only [hfind, GuestFile.step, hlive, if_true]
    cases hpos : HostFiles.seekFrom offset whence with
    | error errno =>
      rw [cursorAfter_of_error hpos]
      exact ⟨rfl, rfl, h⟩
    | ok pos =>
      obtain ⟨htarget, hrange⟩ := target_of_seekFrom h hlive (hsteady hlive) hpos
      simp only [wp_bind, wp_fs, wpNext_returned]
      intro r k' hm
      obtain ⟨rfl, hview⟩ := hK.seek _ _ _ _ _ hm (htarget ▸ hrange)
      rw [OsFile.sought, htarget] at hview
      rw [htarget]
      simp only [if_pos (toNat_ofInt_lt hrange)]
      refine ⟨rfl, rfl, h.live.trans hlive, ?_, ?_⟩
      · rw [hview]
        exact h.content
      · intro _ _
        rw [hview]

/-- A file that is closed is not open, and its content stays. -/
theorem Shows.remove (h : Shows fd view known g a k) (hview : view k' = view k) :
    Shows fd view known { g with live := false } { a with files := a.files.remove fd } k' := by
  refine ⟨?_, ?_, nofun⟩
  · rw [FdTable.find_remove, if_pos rfl]
    rfl
  · rw [hview]
    exact h.content

end RegularAux

end

open RegularAux

/-! ## The two builds -/

/-- A regular file on Unix, and what else the file module calls there. -/
abbrev Unix.disk (lc : Libc) (vol : Volume) : Machine ((Fs Str).sum Unix.FileHost) (OsFile × Unit) := (Unix.regularFile lc vol).sum .any

/-- A regular file on Windows, and what else the file module has and calls there. -/
abbrev Windows.disk (vol : Volume) : Machine ((Fs WinPath).sum Windows.FileHost) (OsFile × (Windows.LockMaps × Unit)) :=
  (Windows.regularFile vol).sum ((Machine.det (S := Windows.LockMaps.Sig) Windows.LockMaps.handle).sum .any)

section
variable {vol : Volume} {known : Bool} {fd : Int32} {g : GuestFile} {e : Export}

/-- A call is steady. A seek on an fd that is not open is refused. -/
def Fits (vol : Volume) (known : Bool) (g : GuestFile) : FileImport → Prop
  | .seek fd offset whence => g.live = true → Steady vol known g.file (.seek fd offset whence)
  | c => Steady vol known g.file c

/-- Each import on Unix does what it is for. -/
theorem wp_unix_import (lc : Libc) {a : HostFilesInner Str} {k : OsFile × Unit} (h : Shows fd Prod.fst known g a k) {c : FileImport}
    (hc : c.OnFile fd) (hfits : Fits vol known g c) :
    wp (fileMachine guestMachine (Unix.disk lc vol)) (Unix.fileProg lc c)
      (fun _ => Did fd Prod.fst (cursorAfter false known c) (g.step e c)) (e, a, k) := by
  have hK := regular_unix lc vol
  cases c with
  | pread _ bufPtr len offset =>
    cases hc
    exact wp_pread _ hK h bufPtr hfits
  | pwrite _ bufPtr len offset =>
    cases hc
    exact wp_pwrite _ hK h bufPtr hfits
  | seek _ offset whence =>
    cases hc
    exact wp_seek _ hK h hfits
  | truncate _ size =>
    cases hc
    exact wp_truncate _ hK h hfits
  | close _ =>
    cases hc
    simp only [Unix.fileProg, wp_map, Unix.closeFile, wp_bind, wp_filesRemove, wpNext_returned, GuestFile.step]
    rcases find_cases h with ⟨hfind, hlive⟩ | ⟨file, hfind, hlive⟩
    · simp only [hfind, hlive]
      refine ⟨rfl, rfl, ?_⟩
      rw [FdTable.remove_of_find_none hfind]
      exact h
    · simp only [hfind, hlive, if_true, wp_bind, wp_fs, wpNext_returned]
      intro r k' hm
      exact ⟨rfl, rfl, Shows.remove h (hK.drop _ _ _ _ hm)⟩
  | _ => exact hc.elim

/-- Each import on Windows does what it is for. -/
theorem wp_windows_import (toUppercase : Str → Str) {a : HostFilesInner WinPath} {k : OsFile × (Windows.LockMaps × Unit)}
    (h : Shows fd Prod.fst known g a k) {c : FileImport} (hc : c.OnFile fd) (hfits : Fits vol known g c) :
    wp (fileMachine guestMachine (Windows.disk vol)) (Windows.fileProg toUppercase c)
      (fun _ => Did fd Prod.fst (cursorAfter true known c) (g.step e c)) (e, a, k) := by
  have hK := regular_windows vol
  cases c with
  | pread _ bufPtr len offset =>
    cases hc
    exact wp_pread _ hK h bufPtr hfits
  | pwrite _ bufPtr len offset =>
    cases hc
    exact wp_pwrite _ hK h bufPtr hfits
  | seek _ offset whence =>
    cases hc
    exact wp_seek _ hK h hfits
  | truncate _ size =>
    cases hc
    exact wp_truncate _ hK h hfits
  | close _ =>
    cases hc
    simp only [Windows.fileProg, wp_map, Windows.closeFile, wp_bind, wp_filesRemove, wpNext_returned, GuestFile.step]
    rcases find_cases h with ⟨hfind, hlive⟩ | ⟨file, hfind, hlive⟩
    · simp only [hfind, hlive]
      refine ⟨rfl, rfl, ?_⟩
      rw [FdTable.remove_of_find_none hfind]
      exact h
    · simp only [hfind, hlive, if_true, wp_bind, wp_fs, Windows.lockMaps, wp_own, wpNext_returned]
      intro r k₁ hm r' k₂ hm'
      exact ⟨rfl, rfl, Shows.remove h (hm'.2.trans (hK.drop _ _ _ _ hm))⟩
  | _ => exact hc.elim

end

end WasmtimeMysql
