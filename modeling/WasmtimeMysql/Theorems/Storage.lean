import WasmtimeMysql.GuestStorage
import WasmtimeMysql.Theorems.HostParity

/-!
# MySQL's file

The calls that InnoDB makes on one data file, through the shims of the guest and the import module, over a regular file of the host.
`GuestFile.storage` is what they are for: a file of bytes, of which `pread` and `pwrite` reach any part. On Unix that is what they do
(`storage_unix`), as long as the calls stay within the room that the volume has. On Windows `pread` and `pwrite` move the cursor of the file; no
call that InnoDB makes lets it see where the cursor is, so it is the same file there (`storage_windows`).
-/

namespace WasmtimeMysql

open Effects Effects.Prog

/-! ## The calls -/

/-- A call of InnoDB on a file. -/
inductive StorageCall where
  | execute (isRead : Bool) (buf : Int32) (n : UInt32) (offset : UInt64)
  | getSize
  | seek (offset : UInt64)
  | truncate (size : UInt64)
  | close
  deriving DecidableEq, Repr

/-- How InnoDB reads an `int` or a `ssize_t`: `-1` is a failure, and `errno` says which. -/
def Decoded.reply32 (d : Decoded Int32) : Except (Option Int32) Nat := if d.value = -1 then .error d.errno else .ok d.value.toNatClampNeg

/-- How InnoDB reads an `os_offset_t`. -/
def Decoded.reply64 (d : Decoded UInt64) : Except (Option Int32) Nat :=
  if d.value = (-1 : Int64).toUInt64 then .error d.errno else .ok d.value.toNat

/-- How InnoDB reads an `off_t`. -/
def Decoded.replyOff (d : Decoded Int64) : Except (Option Int32) Nat := if d.value = -1 then .error d.errno else .ok d.value.toNatClampNeg

/-- What a call runs in the guest. -/
def StorageCall.prog (fd : Int32) : StorageCall → Prog GuestFiles (Except (Option Int32) Nat)
  | .execute isRead buf n offset => do return (← Os0file.execute isRead fd buf n offset).reply32
  | .getSize => do return (← Os0file.osFileGetSize fd).reply64
  | .seek offset => do return (← Os0file.osFileSeek fd offset).replyOff
  | .truncate size => do return (← Os0file.osWasiFileTruncate fd size).reply32
  | .close => do return (← Os0file.osWasiFileClose fd).reply32

/-! ## What they are for -/

/-- The result of a read or a write. -/
def GuestFile.executed (e : Export) (g : GuestFile) : Bool → Int32 → UInt32 → UInt64 → Except Errno Nat × Export × GuestFile
  | true, buf, n, offset =>
    if n.toNat > maxIoLen then (.error .einval, e, g)
    else if g.live = false then (.error .ebadf, e, g)
    else
      let data := dataAt g.file.content n.toNat offset.toNat
      if data = [] then (.ok 0, e, g) else ((e.writeAnswer buf data).map fun _ => data.length, e.afterWrite buf data, g)
  | false, buf, n, offset =>
    if n > Os0file.int32Max then (.error .einval, e, g)
    else
      match e.readGuest buf n.toInt32 with
      | .error errno => (.error errno, e, g)
      | .ok bytes =>
        if g.live = false then (.error .ebadf, e, g)
        else (.ok bytes.length, e, { g with file.content := writtenAt g.file.content bytes offset.toNat })

/-- What a call returns, and what it leaves of guest memory and of the file. -/
def GuestFile.storage (e : Export) (g : GuestFile) : StorageCall → Except Errno Nat × Export × GuestFile
  | .execute isRead buf n offset => g.executed e isRead buf n offset
  | .getSize => if g.live = false then (.error .ebadf, e, g) else (.ok g.file.content.length, e, g)
  | .seek offset =>
    if g.live = false then (.error .ebadf, e, g)
    else if offset.toNat > maxOffset then (.error .einval, e, g)
    else (.ok offset.toNat, e, { g with file.cursor := offset.toNat })
  | .truncate size =>
    if size.toNat > maxOffset then (.error .einval, e, g)
    else if g.live = false then (.error .ebadf, e, g)
    else (.ok 0, e, { g with file.content := resized g.file.content size.toNat })
  | .close => if g.live = false then (.error .ebadf, e, g) else (.ok 0, e, { g with live := false })

/-- The errno as `errno` has it. -/
def toReply (r : Except Errno Nat) : Except (Option Int32) Nat := r.mapError fun errno => some errno.code

/-- The same, with the reply that the guest's code gets. -/
def GuestFile.serve (e : Export) (g : GuestFile) (c : StorageCall) : Except (Option Int32) Nat × Export × GuestFile :=
  (toReply (g.storage e c).1, (g.storage e c).2)

/-! ## The numbers -/

namespace StorageAux

/-- A length as the import gets it. -/
theorem toInt32_eq (n : UInt32) : n.toInt32 = Int32.ofNat n.toNat := by
  rw [← Int32.toInt32_toUInt32 (Int32.ofNat n.toNat), Int32.toUInt32_ofNat', UInt32.ofNat_toNat]

/-- A length that passes the guest's check is an `i32`, ... -/
theorem toNat_lt_of_le {n : UInt32} (h : ¬n > Os0file.int32Max) : n.toNat < 2 ^ 31 := by
  have hle : n.toNat ≤ Os0file.int32Max.toNat := UInt32.le_iff_toNat_le.mp (UInt32.not_lt.mp h)
  have hmax : Os0file.int32Max.toNat = 2 ^ 31 - 1 := rfl
  omega

/-- The length that the import checks. -/
theorem checkedLen_toInt32 {n : UInt32} (h : ¬n > Os0file.int32Max) :
    checkedLen n.toInt32 = if n.toNat > maxIoLen then .error .einval else .ok n.toNat := by
  rw [toInt32_eq, checkedLen_ofNat (toNat_lt_of_le h)]

/-- ... and one that does not would not pass the runner's. -/
theorem toNat_gt_of_gt {n : UInt32} (h : n > Os0file.int32Max) : n.toNat > maxIoLen := by
  have hlt : Os0file.int32Max.toNat < n.toNat := UInt32.lt_iff_toNat_lt.mp h
  have hmax : maxIoLen ≤ Os0file.int32Max.toNat := by decide
  omega

/-- An offset as the import gets it. -/
theorem toInt64_eq (offset : UInt64) : offset.toInt64 = Int64.ofNat offset.toNat := by
  rw [← UInt64.toInt64_ofNat', UInt64.ofNat_toNat]

/-- An offset that is not too great is the same as an `i64`, ... -/
theorem toInt_toInt64 {offset : UInt64} (h : ¬offset.toNat > maxOffset) : offset.toInt64.toInt = offset.toNat := by
  have hmax : maxOffset = 2 ^ 63 - 1 := rfl
  rw [toInt64_eq]
  exact Int64.toInt_ofNat_of_lt (by omega)

/-- It is not negative, ... -/
theorem toInt64_nonneg {offset : UInt64} (h : ¬offset.toNat > maxOffset) : 0 ≤ offset.toInt64 := by
  have hzero : (0 : Int64).toInt = 0 := by decide
  rw [Int64.le_iff_toInt_le, toInt_toInt64 h, hzero]
  exact Int.natCast_nonneg _

/-- ... and is not clamped. -/
theorem toNatClampNeg_toInt64 {offset : UInt64} (h : ¬offset.toNat > maxOffset) : offset.toInt64.toNatClampNeg = offset.toNat := by
  unfold Int64.toNatClampNeg
  rw [toInt_toInt64 h]
  rfl

/-- ... and one that is too great is negative. -/
theorem toInt64_neg {offset : UInt64} (h : offset.toNat > maxOffset) : offset.toInt64 < 0 := by
  have hmax : maxOffset = 2 ^ 63 - 1 := rfl
  have hlt : offset.toNat < 2 ^ 64 := offset.toNat_lt
  have hzero : (0 : Int64).toInt = 0 := by decide
  have hsize : Int64.size = 2 ^ 64 := rfl
  rw [Int64.lt_iff_toInt_lt, toInt64_eq, Int64.toInt_ofNat', hzero, hsize, Int.bmod_def]
  omega

/-! ## The replies -/

/-- A negated errno is a reply with this errno. -/
@[simp] theorem reply32_negErrno (errno : Errno) : (decodeRc (negErrno errno)).reply32 = toReply (.error errno) := by
  rw [decodeRc_negErrno]
  rfl

/-- A count is the reply. -/
theorem reply32_ofNat {n : Nat} (h : n < 2 ^ 31) : (decodeRc (Int32.ofNat n)).reply32 = .ok n := by
  have hint : (Int32.ofNat n).toInt = n := Int32.toInt_ofNat_of_lt h
  have hzero : (0 : Int32).toInt = 0 := by decide
  have hone : (-1 : Int32).toInt = -1 := by decide
  have hnonneg : 0 ≤ Int32.ofNat n := by
    rw [Int32.le_iff_toInt_le, hint, hzero]
    exact Int.natCast_nonneg n
  have hne : Int32.ofNat n ≠ -1 := by
    intro heq
    rw [heq, hone] at hint
    omega
  rw [decodeRc_of_nonneg hnonneg]
  unfold Decoded.reply32
  rw [if_neg hne]
  unfold Int32.toNatClampNeg
  rw [hint]
  rfl

/-- The position that a seek came to. -/
theorem reply64_ofNat {n : Nat} (h : ¬n > maxOffset) :
    osWasiFileSeek (Int64.ofNat n) = ⟨UInt64.ofNat n, none⟩ ∧ (UInt64.ofNat n).toNat = n ∧ UInt64.ofNat n ≠ (-1 : Int64).toUInt64 := by
  have hmax : maxOffset = 2 ^ 63 - 1 := rfl
  have hsize : UInt64.size = 2 ^ 64 := rfl
  have hnat : (UInt64.ofNat n).toNat = n := UInt64.toNat_ofNat_of_lt' (by omega)
  have hneg : ((-1 : Int64).toUInt64).toNat = 2 ^ 64 - 1 := by decide
  refine ⟨?_, hnat, ?_⟩
  · have heq : Int64.ofNat n = (UInt64.ofNat n).toInt64 := (UInt64.toInt64_ofNat').symm
    rw [heq, osWasiFileSeek_of_nonneg (toInt64_nonneg (by rw [hnat]; exact h)), UInt64.toUInt64_toInt64]
  · intro heq
    rw [heq, hneg] at hnat
    omega

end StorageAux

/-! ## The hosts -/

section
variable {P κ : Type} {Host : Sig}

/-- The imports that the calls go to are those that both modules have. -/
structure FileModule (ioErrno : IoError → Errno) (h : FileImport → FileProg P Host Int64) : Prop where
  pread : ∀ fd bufPtr len offset, h (.pread fd bufPtr len offset) = Int32.toInt64 <$> HostFiles.pread ioErrno fd bufPtr len offset
  pwrite : ∀ fd bufPtr len offset, h (.pwrite fd bufPtr len offset) = Int32.toInt64 <$> HostFiles.pwrite ioErrno fd bufPtr len offset
  seek : ∀ fd offset whence, h (.seek fd offset whence) = HostFiles.seek ioErrno fd offset whence
  truncate : ∀ fd size, h (.truncate fd size) = Int32.toInt64 <$> HostFiles.truncate ioErrno fd size

/-- A call stays within the room that there is. An offset or a size that is no `i64` is refused by the import. -/
def StorageCall.InBounds (vol : Volume) : StorageCall → Prop
  | .execute _ _ n offset => offset.toNat + n.toNat ≤ vol.room
  | .seek offset => offset.toNat ≤ vol.room ∨ offset.toNat > maxOffset
  | .truncate size => size.toNat ≤ vol.room ∨ size.toNat > maxOffset
  | _ => True

/-- What is kept of the file beside what the host shows of it: its length, and the cursor, if it is known, are within the room. -/
structure GuestFile.Sound (vol : Volume) (moves : Bool) (g : GuestFile) : Prop where
  length : g.file.content.length ≤ vol.room
  cursor : moves = false → g.file.cursor ≤ vol.room

/-- The call has done what it is for. -/
def Served (fd : Int32) (view : κ → OsFile) (moves : Bool) (done : Except Errno Nat × Export × GuestFile)
    (o : Outcome (Except (Option Int32) Nat)) (s : Export × (HostFilesInner P × κ)) : Prop :=
  o = .returned (toReply done.1) ∧ s.1 = done.2.1 ∧ Shows fd view (!moves) done.2.2 s.2.1 s.2.2

namespace StorageAux

open RegularAux

variable {vol : Volume} {moves : Bool} {ioErrno : IoError → Errno} {h : FileImport → FileProg P Host Int64} {K : Machine ((Fs P).sum Host) κ}
  {view : κ → OsFile} {fd : Int32} {g : GuestFile} {e : Export} {a : HostFilesInner P} {k : κ}

/-- An import with a result of 32 bits, from the guest. -/
theorem wp_import32 {σ : Type} {M : Machine (GuestMem.sum (FileSig P Host)) σ} {c : FileImport} {s : σ}
    {Q : List (Event (GuestMem.sum (FileSig P Host))) → Outcome Int32 → σ → Prop} :
    wp M ((Os0file.import32 c).through h) Q s ↔ wp M (h c) (fun tr o => Q tr (o.map Int64.toInt32)) s := by
  have heq : (Os0file.import32 c).through h = Int64.toInt32 <$> h c := bind_pure_comp Int64.toInt32 (h c)
  rw [heq, wp_map]

/-- What the guest makes of an import's result. -/
theorem wp_decoded {α β σ : Type} {M : Machine (GuestMem.sum (FileSig P Host)) σ} {p : Prog GuestFiles α} {f : α → β} {s : σ}
    {Q : List (Event (GuestMem.sum (FileSig P Host))) → Outcome β → σ → Prop} :
    wp M ((p >>= fun a => pure (f a)).through h) Q s ↔ wp M (p.through h) (fun tr o => Q tr (o.map f)) s := by
  have heq : (p >>= fun a => pure (f a)).through h = f <$> p.through h := by
    rw [through_bind]
    exact bind_pure_comp f (p.through h)
  rw [heq, wp_map]

/-- The same file is shown. -/
theorem Shows.same {k' : κ} (hshows : Shows fd view (!moves) g a k) (hview : view k' = view k) : Shows fd view (!moves) g a k' := by
  refine ⟨hshows.live, ?_, ?_⟩
  · rw [hview]
    exact hshows.content
  · rw [hview]
    exact hshows.cursor

/-- The reply to a read that the import gives. -/
theorem reply_pread (g : GuestFile) (e : Export) (fd buf : Int32) {n : UInt32} {offset : UInt64} (hn : ¬n > Os0file.int32Max)
    (hoffset : ¬offset.toNat > maxOffset) :
    (decodeRc (g.step e (.pread fd buf n.toInt32 offset.toInt64)).1.toInt32).reply32 = toReply (g.executed e true buf n offset).1 ∧
    (g.step e (.pread fd buf n.toInt32 offset.toInt64)).2 = (g.executed e true buf n offset).2 := by
  simp only [GuestFile.step, GuestFile.executed, checkedLen_toInt32 hn, toNatClampNeg_toInt64 hoffset]
  by_cases hlen : n.toNat > maxIoLen
  · simp [if_pos hlen]
  · simp only [if_neg hlen]
    cases hlive : g.live with
    | false => simp
    | true =>
      simp only [if_true, Bool.true_eq_false, if_false]
      generalize hdata : dataAt g.file.content n.toNat offset.toNat = data
      have hlt : data.length < 2 ^ 31 := by
        have hle : data.length ≤ n.toNat := hdata ▸ length_dataAt_le _ _ _
        have hlt := toNat_lt_of_le hn
        omega
      by_cases hnil : data = []
      · simp only [if_pos hnil]
        exact ⟨reply32_ofNat (by decide : 0 < 2 ^ 31), trivial⟩
      · simp only [if_neg hnil]
        cases e.writeAnswer buf data with
        | ok u =>
          simp only [Int32.toInt32_toInt64, reply32_ofNat hlt]
          exact ⟨rfl, trivial⟩
        | error errno => simp [Except.map]

/-- The reply to a write that the import gives. -/
theorem reply_pwrite (g : GuestFile) (e : Export) (fd buf : Int32) {n : UInt32} {offset : UInt64} (hn : ¬n > Os0file.int32Max)
    (hoffset : ¬offset.toNat > maxOffset) :
    (decodeRc (g.step e (.pwrite fd buf n.toInt32 offset.toInt64)).1.toInt32).reply32 = toReply (g.executed e false buf n offset).1 ∧
    (g.step e (.pwrite fd buf n.toInt32 offset.toInt64)).2 = (g.executed e false buf n offset).2 := by
  simp only [GuestFile.step, GuestFile.executed, toNatClampNeg_toInt64 hoffset, if_neg hn]
  cases hread : e.readGuest buf n.toInt32 with
  | error errno => simp
  | ok bytes =>
    cases hlive : g.live with
    | false => simp
    | true =>
      have hlt : bytes.length < 2 ^ 31 := by
        have hle := checkedLen_le (Export.checkedLen_of_readGuest hread)
        have hmax : maxIoLen < 2 ^ 31 := by decide
        omega
      simp only [if_true, Bool.true_eq_false, if_false, Int32.toInt32_toInt64, reply32_ofNat hlt]
      exact ⟨rfl, trivial⟩

/-- A file that the host shows as known is shown. -/
theorem Shows.weaken {known : Bool} (hshows : Shows fd view known g a k) (hknown : known = false → moves = true) :
    Shows fd view (!moves) g a k := by
  refine ⟨hshows.live, hshows.content, ?_⟩
  intro hlive hmoves
  refine hshows.cursor hlive ?_
  cases known with
  | true => rfl
  | false =>
    rw [hknown rfl] at hmoves
    cases hmoves

/-- What the guest does with the result of an import that has done what it is for. -/
theorem served_of_did {known : Bool} {done : Except Errno Nat × Export × GuestFile} {did : Int64 × Export × GuestFile}
    (hknown : known = false → moves = true) (hreply : (decodeRc did.1.toInt32).reply32 = toReply done.1) (hrest : did.2 = done.2)
    {o : Outcome Int64} {s : Export × (HostFilesInner P × κ)} (hdid : Did fd view known did o s) :
    Served fd view moves done (((o.map Int64.toInt32).map decodeRc).map Decoded.reply32) s := by
  obtain ⟨ho, hs, hshows⟩ := hdid
  rw [hrest] at hs hshows
  refine ⟨?_, hs, Shows.weaken hshows hknown⟩
  rw [ho]
  simp only [Outcome.map_returned, hreply]

/-- What ends within the room is an `i64`. -/
theorem not_gt_of_le_room {n : Nat} (h : n ≤ vol.room) : ¬n > maxOffset := by
  have hroom := vol.room_le
  omega

/-- The import is asked for what ends within the room. -/
theorem steady_execute {n : UInt32} {offset : UInt64} (hn : ¬n > Os0file.int32Max) (hbounds : offset.toNat + n.toNat ≤ vol.room) :
    0 ≤ offset.toInt64 ∧ offset.toInt64.toInt + n.toInt32.toInt ≤ vol.room := by
  have hoffset : ¬offset.toNat > maxOffset := not_gt_of_le_room (Nat.le_trans (Nat.le_add_right _ _) hbounds)
  have hlen : n.toInt32.toInt = n.toNat := by
    rw [toInt32_eq]
    exact Int32.toInt_ofNat_of_lt (toNat_lt_of_le hn)
  refine ⟨toInt64_nonneg hoffset, ?_⟩
  rw [toInt_toInt64 hoffset, hlen]
  exact Int.ofNat_le.mpr hbounds

/-- If the cursor is not known after a call, positional calls move it. -/
theorem known_cases (moves : Bool) : (!moves && !moves) = false → moves = true := by cases moves <;> simp

/-- A read or a write of InnoDB. -/
theorem wp_execute (hK : Regular moves vol K view) (hh : FileModule ioErrno h) (hshows : Shows fd view (!moves) g a k) {isRead : Bool}
    {buf : Int32} {n : UInt32} {offset : UInt64} (hbounds : offset.toNat + n.toNat ≤ vol.room) :
    wp (fileMachine guestMachine K) (((StorageCall.execute isRead buf n offset).prog fd).through h)
      (fun _ => Served fd view moves (g.executed e isRead buf n offset)) (e, a, k) := by
  have hoffset : ¬offset.toNat > maxOffset := not_gt_of_le_room (Nat.le_trans (Nat.le_add_right _ _) hbounds)
  cases isRead with
  | true =>
    simp only [StorageCall.prog, wp_decoded, Os0file.execute, if_true, Os0file.osWasiFilePread]
    by_cases hn : n > Os0file.int32Max
    · simp only [if_pos hn, GuestFile.executed, if_pos (toNat_gt_of_gt hn)]
      exact ⟨rfl, rfl, hshows⟩
    · simp only [if_neg hn, wp_decoded, wp_import32, hh.pread]
      obtain ⟨hreply, hrest⟩ := reply_pread g e fd buf hn hoffset
      refine wp_mono (wp_pread ioErrno hK hshows buf (steady_execute hn hbounds)) ?_
      intro tr o s hdid
      exact served_of_did (known_cases moves) hreply hrest hdid
  | false =>
    simp only [StorageCall.prog, wp_decoded, Os0file.execute, Bool.false_eq_true, if_false, Os0file.osWasiFilePwrite]
    by_cases hn : n > Os0file.int32Max
    · simp only [if_pos hn, GuestFile.executed]
      exact ⟨rfl, rfl, hshows⟩
    · simp only [if_neg hn, wp_decoded, wp_import32, hh.pwrite]
      obtain ⟨hreply, hrest⟩ := reply_pwrite g e fd buf hn hoffset
      refine wp_mono (wp_pwrite ioErrno hK hshows buf (steady_execute hn hbounds)) ?_
      intro tr o s hdid
      exact served_of_did (known_cases moves) hreply hrest hdid

/-- A size or an offset that is refused or within the room. -/
theorem toInt_le_room {size : UInt64} (hbounds : size.toNat ≤ vol.room ∨ size.toNat > maxOffset) : size.toInt64.toInt ≤ vol.room := by
  rcases hbounds with hle | hgt
  · rw [toInt_toInt64 (not_gt_of_le_room hle)]
    exact Int.ofNat_le.mpr hle
  · have hneg := Int64.lt_iff_toInt_lt.mp (toInt64_neg hgt)
    have hzero : (0 : Int64).toInt = 0 := by decide
    omega

/-- Its `truncate`. -/
theorem wp_storage_truncate (hK : Regular moves vol K view) (hh : FileModule ioErrno h) (hshows : Shows fd view (!moves) g a k) {size : UInt64}
    (hbounds : size.toNat ≤ vol.room ∨ size.toNat > maxOffset) :
    wp (fileMachine guestMachine K) (((StorageCall.truncate size).prog fd).through h)
      (fun _ => Served fd view moves (g.storage e (.truncate size))) (e, a, k) := by
  simp only [StorageCall.prog, Os0file.osWasiFileTruncate, wp_decoded, wp_import32, hh.truncate]
  have hstep : (decodeRc (g.step e (.truncate fd size.toInt64)).1.toInt32).reply32 = toReply (g.storage e (.truncate size)).1 ∧
      (g.step e (.truncate fd size.toInt64)).2 = (g.storage e (.truncate size)).2 := by
    simp only [GuestFile.step, GuestFile.storage]
    by_cases hsize : size.toNat > maxOffset
    · simp [if_pos (toInt64_neg hsize), if_pos hsize]
    · simp only [if_neg (Int64.not_lt.mpr (toInt64_nonneg hsize)), if_neg hsize, toNatClampNeg_toInt64 hsize]
      cases hlive : g.live with
      | false => simp
      | true => exact ⟨rfl, rfl⟩
  refine wp_mono (wp_truncate ioErrno hK hshows (toInt_le_room hbounds)) ?_
  intro tr o s hdid
  exact served_of_did (by cases moves <;> simp) hstep.1 hstep.2 hdid

/-- Its `close`. -/
theorem wp_storage_close (hclose : ∀ e, wp (fileMachine guestMachine K) (h (.close fd)) (fun _ => Did fd view (!moves) (g.step e (.close fd)))
      (e, a, k)) :
    wp (fileMachine guestMachine K) ((StorageCall.close.prog fd).through h)
      (fun _ => Served fd view moves (g.storage e .close)) (e, a, k) := by
  simp only [StorageCall.prog, Os0file.osWasiFileClose, wp_decoded, wp_import32]
  have hstep : (decodeRc (g.step e (.close fd)).1.toInt32).reply32 = toReply (g.storage e .close).1 ∧
      (g.step e (.close fd)).2 = (g.storage e .close).2 := by
    simp only [GuestFile.step, GuestFile.storage]
    cases hlive : g.live with
    | false => simp
    | true => exact ⟨rfl, rfl⟩
  refine wp_mono (hclose e) ?_
  intro tr o s hdid
  exact served_of_did (by cases moves <;> simp) hstep.1 hstep.2 hdid

/-- A seek from the guest. -/
theorem wp_guest_seek (hh : FileModule ioErrno h) {offset : UInt64} {whence : Int32} {s : Export × (HostFilesInner P × κ)}
    {Q : List (Event (GuestMem.sum (FileSig P Host))) → Outcome (Decoded UInt64) → Export × (HostFilesInner P × κ) → Prop} :
    wp (fileMachine guestMachine K) ((Os0file.osWasiFileSeek fd offset whence).through h) Q s ↔
      wp (fileMachine guestMachine K) (HostFiles.seek ioErrno fd offset.toInt64 whence) (fun tr o => Q tr (o.map osWasiFileSeek)) s := by
  have heq : (Os0file.osWasiFileSeek fd offset whence).through h = osWasiFileSeek <$> h (.seek fd offset.toInt64 whence) :=
    bind_pure_comp osWasiFileSeek (h (.seek fd offset.toInt64 whence))
  rw [heq, wp_map, hh.seek]

/-- A seek from the start within the room is steady. -/
theorem steady_set {known : Bool} {f : OsFile} {offset : Int64} (h : offset.toInt ≤ vol.room) : Steady vol known f (.seek fd offset seekSet) :=
  ⟨fun _ => h, fun hcur => absurd hcur (by decide), fun hend => absurd hend (by decide)⟩

/-- A size as a position. -/
theorem ofInt_natCast {n : Nat} (hn : ¬n > maxOffset) : UInt64.ofInt (n : Int) = UInt64.ofNat n := by
  have hmax : maxOffset = 2 ^ 63 - 1 := rfl
  have hmod : ((n : Int) % 2 ^ 64).toNat = n := by omega
  unfold UInt64.ofInt
  rw [hmod]

/-- A seek that the import refuses. -/
theorem step_seek_error {offset : Int64} {whence : Int32} {errno : Errno} (hlive : g.live = true)
    (hpos : HostFiles.seekFrom offset whence = .error errno) : g.step e (.seek fd offset whence) = ((negErrno errno).toInt64, e, g) := by
  simp only [GuestFile.step, hlive, if_true, hpos]

/-- A seek to a position. -/
theorem step_seek_ok (e : Export) (fd : Int32) {offset : Int64} {whence : Int32} {pos : SeekFrom} {n : Nat} (hlive : g.live = true)
    (hpos : HostFiles.seekFrom offset whence = .ok pos) (htarget : g.file.target pos = n) (hn : ¬n > maxOffset) :
    g.step e (.seek fd offset whence) = (Int64.ofNat n, e, { g with file.cursor := n }) := by
  simp only [GuestFile.step, hlive, if_true, hpos, htarget, ofInt_natCast hn, UInt64.toInt64_ofNat', Int.toNat_natCast]

/-- Where a seek from the start goes. -/
theorem step_seek_set (g : GuestFile) (e : Export) (fd : Int32) (offset : UInt64) :
    (g.live = false ∧ g.step e (.seek fd offset.toInt64 seekSet) = ((negErrno .ebadf).toInt64, e, g)) ∨
    (g.live = true ∧ offset.toNat > maxOffset ∧ g.step e (.seek fd offset.toInt64 seekSet) = ((negErrno .einval).toInt64, e, g)) ∨
    (g.live = true ∧ ¬offset.toNat > maxOffset ∧
      g.step e (.seek fd offset.toInt64 seekSet) = (Int64.ofNat offset.toNat, e, { g with file.cursor := offset.toNat })) := by
  cases hlive : g.live with
  | false =>
    refine .inl ⟨rfl, ?_⟩
    simp [GuestFile.step, hlive]
  | true =>
    by_cases hoffset : offset.toNat > maxOffset
    · refine .inr (.inl ⟨rfl, hoffset, step_seek_error hlive ?_⟩)
      simp [HostFiles.seekFrom, toInt64_neg hoffset]
    · refine .inr (.inr ⟨rfl, hoffset, ?_⟩)
      have hpos : HostFiles.seekFrom offset.toInt64 seekSet = .ok (.start offset) := by
        simp only [HostFiles.seekFrom, if_true, if_neg (Int64.not_lt.mpr (toInt64_nonneg hoffset)), UInt64.toUInt64_toInt64]
      have hstep := step_seek_ok e fd hlive hpos rfl hoffset
      rw [hlive] at hstep
      exact hstep

/-- If the cursor is not known after a seek, positional calls move it. -/
theorem cursorAfter_seek (moves : Bool) (offset : Int64) (whence : Int32) :
    cursorAfter moves (!moves) (.seek fd offset whence) = false → moves = true := by
  cases moves <;> simp [cursorAfter]

/-- Its `seek`. -/
theorem wp_storage_seek (hK : Regular moves vol K view) (hh : FileModule ioErrno h) (hshows : Shows fd view (!moves) g a k) {offset : UInt64}
    (hbounds : offset.toNat ≤ vol.room ∨ offset.toNat > maxOffset) :
    wp (fileMachine guestMachine K) (((StorageCall.seek offset).prog fd).through h)
      (fun _ => Served fd view moves (g.storage e (.seek offset))) (e, a, k) := by
  simp only [StorageCall.prog, Os0file.osFileSeek, wp_decoded, wp_guest_seek hh]
  refine wp_mono (wp_seek ioErrno hK hshows fun _ => steady_set (toInt_le_room hbounds)) ?_
  intro tr o s hdid
  obtain ⟨rfl, hs, hafter⟩ := hdid
  have hafter := Shows.weaken hafter (cursorAfter_seek moves offset.toInt64 seekSet)
  rcases step_seek_set g e fd offset with ⟨hlive, hstep⟩ | ⟨hlive, hoffset, hstep⟩ | ⟨hlive, hoffset, hstep⟩
  · rw [hstep] at hs hafter ⊢
    simp only [GuestFile.storage, hlive, if_true, Outcome.map_returned, osWasiFileSeek_negErrno]
    exact ⟨rfl, hs, hafter⟩
  · rw [hstep] at hs hafter ⊢
    simp only [GuestFile.storage, hlive, Bool.true_eq_false, if_false, if_pos hoffset, Outcome.map_returned, osWasiFileSeek_negErrno]
    exact ⟨rfl, hs, hafter⟩
  · rw [hstep] at hs hafter ⊢
    obtain ⟨hvalue, -, -⟩ := reply64_ofNat hoffset
    have hne : offset.toInt64 ≠ -1 := by
      intro heq
      have hnonneg := toInt64_nonneg hoffset
      rw [heq] at hnonneg
      exact absurd hnonneg (by decide)
    have hspec : g.storage e (.seek offset) = (.ok offset.toNat, e, { g with file.cursor := offset.toNat }) := by
      simp only [GuestFile.storage, hlive, Bool.true_eq_false, if_false, if_neg hoffset]
    simp only [hspec, Outcome.map_returned, hvalue, UInt64.ofNat_toNat, Decoded.replyOff, if_neg hne, toNatClampNeg_toInt64 hoffset]
    exact ⟨rfl, hs, hafter⟩

/-! ### The size -/

/-- Where the cursor is not known, a seek leaves what is shown. -/
theorem wp_seek_moves (hK : Regular moves vol K view) (hmoves : moves = true) (hshows : Shows fd view (!moves) g a k) (offset : Int64)
    (whence : Int32) : wp (fileMachine guestMachine K) (HostFiles.seek ioErrno fd offset whence)
      (fun _ o s => ∃ rc, o = .returned rc ∧ s.1 = e ∧ Shows fd view (!moves) g s.2.1 s.2.2) (e, a, k) := by
  simp only [HostFiles.seek, wp_bind, wp_filesGet, wpNext_returned]
  rcases find_cases hshows with ⟨hfind, -⟩ | ⟨file, hfind, -⟩
  · simp only [hfind]
    exact ⟨_, rfl, rfl, hshows⟩
  · simp only [hfind]
    cases HostFiles.seekFrom offset whence with
    | error errno => exact ⟨_, rfl, rfl, hshows⟩
    | ok pos =>
      simp only [wp_bind, wp_fs, wpNext_returned]
      intro r k' hm
      have hsame : Shows fd view (!moves) g a k' := by
        refine ⟨hshows.live, (hK.seekContent _ _ _ _ _ hm).trans hshows.content, ?_⟩
        intro _ hknown
        rw [hmoves] at hknown
        cases hknown
      cases r with
      | error err => exact ⟨_, rfl, rfl, hsame⟩
      | ok reached =>
        simp only
        split <;> exact ⟨_, rfl, rfl, hsame⟩

/-- The cursor, where it is known. -/
theorem wp_tell (hK : Regular moves vol K view) (hshows : Shows fd view (!moves) g a k) (hsound : g.Sound vol moves) :
    wp (fileMachine guestMachine K) (HostFiles.seek ioErrno fd (0 : UInt64).toInt64 seekCur)
      (fun _ o s => ∃ rc, o = .returned rc ∧ s.1 = e ∧ Shows fd view (!moves) g s.2.1 s.2.2 ∧
        (moves = false → (g.live = true ∧ rc = Int64.ofNat g.file.cursor) ∨ (g.live = false ∧ rc = (negErrno .ebadf).toInt64))) (e, a, k) := by
  cases hmoves : moves with
  | true =>
    subst hmoves
    refine wp_mono (wp_seek_moves hK rfl hshows _ _) ?_
    rintro tr o s ⟨rc, rfl, he, hafter⟩
    exact ⟨rc, rfl, he, hafter, nofun⟩
  | false =>
    subst hmoves
    have hzero : (0 : UInt64).toInt64.toInt = 0 := by decide
    have hcursor : g.file.cursor ≤ vol.room := hsound.cursor rfl
    have hsteady : Steady vol true g.file (.seek fd (0 : UInt64).toInt64 seekCur) := by
      refine ⟨fun hset => absurd hset (by decide), fun _ => ⟨rfl, ?_⟩, fun hend => absurd hend (by decide)⟩
      rw [hzero, Int.add_zero]
      exact ⟨Int.natCast_nonneg _, Int.ofNat_le.mpr hcursor⟩
    refine wp_mono (wp_seek ioErrno hK hshows fun _ => hsteady) ?_
    intro tr o s hdid
    obtain ⟨rfl, he, hafter⟩ := hdid
    have hafter := Shows.weaken hafter (cursorAfter_seek false _ _)
    cases hlive : g.live with
    | false =>
      have hstep : g.step e (.seek fd (0 : UInt64).toInt64 seekCur) = ((negErrno .ebadf).toInt64, e, g) := by
        simp [GuestFile.step, hlive]
      rw [hstep] at he hafter ⊢
      exact ⟨_, rfl, he, hafter, fun _ => .inr ⟨rfl, rfl⟩⟩
    | true =>
      have htarget : g.file.target (.current (0 : UInt64).toInt64) = g.file.cursor := by simp only [OsFile.target, hzero, Int.add_zero]
      have hpos : HostFiles.seekFrom (0 : UInt64).toInt64 seekCur = .ok (.current (0 : UInt64).toInt64) := by decide
      have hstep := step_seek_ok e fd hlive hpos htarget (not_gt_of_le_room hcursor)
      rw [hstep] at he hafter ⊢
      exact ⟨_, rfl, he, hafter, fun _ => .inl ⟨rfl, rfl⟩⟩

/-- The end of the file. -/
theorem wp_end (hK : Regular moves vol K view) (hshows : Shows fd view (!moves) g a k) (hsound : g.Sound vol moves) (hlive : g.live = true) :
    wp (fileMachine guestMachine K) (HostFiles.seek ioErrno fd (0 : UInt64).toInt64 seekEnd)
      (fun _ o s => s.1 = e ∧ o = .returned (Int64.ofNat g.file.content.length) ∧
        Shows fd view (!moves) { g with file.cursor := g.file.content.length } s.2.1 s.2.2) (e, a, k) := by
  have hzero : (0 : UInt64).toInt64.toInt = 0 := by decide
  have hsteady : Steady vol (!moves) g.file (.seek fd (0 : UInt64).toInt64 seekEnd) := by
    refine ⟨fun hset => absurd hset (by decide), fun hcur => absurd hcur (by decide), fun _ => ?_⟩
    rw [hzero, Int.add_zero]
    exact ⟨Int.natCast_nonneg _, Int.ofNat_le.mpr hsound.length⟩
  refine wp_mono (wp_seek ioErrno hK hshows fun _ => hsteady) ?_
  intro tr o s hdid
  obtain ⟨rfl, hs, hafter⟩ := hdid
  have htarget : g.file.target (.fromEnd (0 : UInt64).toInt64) = g.file.content.length := by simp only [OsFile.target, hzero, Int.add_zero]
  have hpos : HostFiles.seekFrom (0 : UInt64).toInt64 seekEnd = .ok (.fromEnd (0 : UInt64).toInt64) := by decide
  have hstep := step_seek_ok e fd hlive hpos htarget (not_gt_of_le_room hsound.length)
  rw [hstep] at hs hafter ⊢
  exact ⟨hs, rfl, Shows.weaken hafter (cursorAfter_seek moves _ _)⟩

/-- Where the cursor is not known, it does not matter. -/
theorem Shows.cursor_free {n : Nat} (hmoves : moves = true) (hshows : Shows fd view (!moves) { g with file.cursor := n } a k) :
    Shows fd view (!moves) g a k := by
  subst hmoves
  exact ⟨hshows.live, hshows.content, nofun⟩

/-- The seek back. The position is the cursor, where that is known. -/
theorem wp_restore (hK : Regular moves vol K view) {n : Nat} (hshows : Shows fd view (!moves) { g with file.cursor := n } a k)
    (hlive : g.live = true) (hsound : g.Sound vol moves) {rc : Int64} (hrc : moves = false → rc = Int64.ofNat g.file.cursor) :
    wp (fileMachine guestMachine K) (HostFiles.seek ioErrno fd (osWasiFileSeek rc).value.toInt64 seekSet)
      (fun _ o s => ∃ rc', o = .returned rc' ∧ s.1 = e ∧ Shows fd view (!moves) g s.2.1 s.2.2) (e, a, k) := by
  cases hmoves : moves with
  | true =>
    refine wp_mono (wp_seek_moves hK hmoves hshows _ _) ?_
    rintro tr o s ⟨rc', rfl, he, hafter⟩
    exact ⟨rc', rfl, he, hmoves ▸ Shows.cursor_free hmoves hafter⟩
  | false =>
    subst hmoves
    have hcursor : g.file.cursor ≤ vol.room := hsound.cursor rfl
    obtain ⟨hvalue, hnat, -⟩ := reply64_ofNat (not_gt_of_le_room hcursor)
    have hpos : (osWasiFileSeek rc).value = UInt64.ofNat g.file.cursor := by rw [hrc rfl, hvalue]
    rw [hpos]
    refine wp_mono (wp_seek ioErrno hK hshows fun _ => steady_set (toInt_le_room (.inl (by rw [hnat]; exact hcursor)))) ?_
    intro tr o s hdid
    obtain ⟨rfl, hs, hafter⟩ := hdid
    have hafter := Shows.weaken hafter (cursorAfter_seek false _ _)
    rcases step_seek_set { g with file.cursor := n } e fd (UInt64.ofNat g.file.cursor) with
      ⟨hdead, -⟩ | ⟨-, hout, -⟩ | ⟨-, -, hstep⟩
    · cases hlive.symm.trans hdead
    · rw [hnat] at hout
      exact absurd hout (not_gt_of_le_room hcursor)
    · rw [hstep, hnat] at hs hafter ⊢
      exact ⟨_, rfl, hs, hafter⟩

/-- A seek on an fd that is not open. -/
theorem wp_seek_dead (hshows : Shows fd view (!moves) g a k) (hlive : g.live = false) (offset : Int64) (whence : Int32) :
    wp (fileMachine guestMachine K) (HostFiles.seek ioErrno fd offset whence)
      (fun _ o s => o = .returned (negErrno .ebadf).toInt64 ∧ s = (e, a, k)) (e, a, k) := by
  simp only [HostFiles.seek, wp_bind, wp_filesGet, wpNext_returned]
  rcases find_cases hshows with ⟨hfind, -⟩ | ⟨file, -, hopen⟩
  · simp only [hfind]
    exact ⟨rfl, rfl⟩
  · cases hlive.symm.trans hopen

/-- Its `os_file_get_size`: the cursor is asked for, moved to the end and put back. -/
theorem wp_getSize (hK : Regular moves vol K view) (hh : FileModule ioErrno h) (hshows : Shows fd view (!moves) g a k)
    (hsound : g.Sound vol moves) :
    wp (fileMachine guestMachine K) ((StorageCall.getSize.prog fd).through h)
      (fun _ => Served fd view moves (g.storage e .getSize)) (e, a, k) := by
  simp only [StorageCall.prog, wp_decoded]
  simp only [Os0file.osFileGetSize, through_bind, wp_bind, wp_guest_seek hh]
  cases hlive : g.live with
  | false =>
    have hspec : g.storage e .getSize = (.error .ebadf, e, g) := by simp only [GuestFile.storage, hlive, if_true]
    refine wp_mono (wp_seek_dead hshows hlive _ _) ?_
    rintro tr₁ o₁ s₁ ⟨rfl, rfl⟩
    simp only [Outcome.map_returned, wpNext_returned, wp_bind, wp_guest_seek hh]
    refine wp_mono (wp_seek_dead hshows hlive _ _) ?_
    rintro tr₂ o₂ s₂ ⟨rfl, rfl⟩
    simp only [Outcome.map_returned, wpNext_returned, wp_bind, wp_guest_seek hh]
    refine wp_mono (wp_seek_dead hshows hlive _ _) ?_
    rintro tr₃ o₃ s₃ ⟨rfl, rfl⟩
    rw [hspec]
    simp only [Outcome.map_returned, wpNext_returned, osWasiFileSeek_negErrno]
    exact ⟨rfl, rfl, hshows⟩
  | true =>
    have hspec : g.storage e .getSize = (.ok g.file.content.length, e, g) := by
      simp only [GuestFile.storage, hlive, Bool.true_eq_false, if_false]
    obtain ⟨hvalue, hnat, hne⟩ := reply64_ofNat (not_gt_of_le_room hsound.length)
    refine wp_mono (wp_tell hK hshows hsound) ?_
    rintro tr₁ o₁ ⟨e₁, a₁, k₁⟩ ⟨rc, rfl, rfl, hshows₁, hrc⟩
    have hcursor : moves = false → rc = Int64.ofNat g.file.cursor := by
      intro hmoves
      rcases hrc hmoves with ⟨-, hrc⟩ | ⟨hdead, -⟩
      · exact hrc
      · cases hlive.symm.trans hdead
    simp only [Outcome.map_returned, wpNext_returned, wp_bind, wp_guest_seek hh]
    refine wp_mono (wp_end hK hshows₁ hsound hlive) ?_
    rintro tr₂ o₂ ⟨e₂, a₂, k₂⟩ ⟨rfl, rfl, hshows₂⟩
    simp only [Outcome.map_returned, wpNext_returned, wp_bind, wp_guest_seek hh]
    refine wp_mono (wp_restore hK hshows₂ hlive hsound hcursor) ?_
    rintro tr₃ o₃ ⟨e₃, a₃, k₃⟩ ⟨rc', rfl, rfl, hshows₃⟩
    rw [hspec]
    simp only [Outcome.map_returned, wpNext_returned, Prog.pure_eq, through_ret, wp_ret, hvalue, Decoded.reply64, if_neg hne, hnat]
    exact ⟨rfl, rfl, hshows₃⟩

/-! ### Every call -/

/-- A write ends within the bounds of the file or at its own end. -/
theorem length_writtenAt_le (content buf : List UInt8) (offset : Nat) :
    (writtenAt content buf offset).length ≤ max content.length (offset + buf.length) := by
  unfold writtenAt
  split
  · exact Nat.le_max_left _ _
  · simp only [Bytes.overwrite, List.length_append, List.length_take, List.length_drop, List.length_replicate]
    omega

/-- A file has the length it was given. -/
theorem length_resized (content : List UInt8) (size : Nat) : (resized content size).length = size := by
  unfold resized
  rw [List.length_append, List.length_take, List.length_replicate]
  omega

/-- The bytes that a write takes from guest memory are as many as it asks for. -/
theorem length_of_readGuest {buf : Int32} {n : UInt32} {bytes : List UInt8} (hn : ¬n > Os0file.int32Max)
    (hread : e.readGuest buf n.toInt32 = .ok bytes) : bytes.length = n.toNat := by
  have hlen := checkedLen_toInt32 hn
  rw [Export.checkedLen_of_readGuest hread] at hlen
  split_ifs at hlen
  exact Except.ok.inj hlen

/-- What a write leaves is sound. -/
theorem sound_write (hsound : g.Sound vol moves) {n offset : Nat} (hbounds : offset + n ≤ vol.room) {bytes : List UInt8}
    (hbytes : bytes.length = n) : ({ g with file.content := writtenAt g.file.content bytes offset } : GuestFile).Sound vol moves := by
  refine ⟨?_, hsound.cursor⟩
  have hwritten := length_writtenAt_le g.file.content bytes offset
  have hlength := hsound.length
  show (writtenAt g.file.content bytes offset).length ≤ vol.room
  omega

/-- What the calls leave of the file is sound. -/
theorem sound_storage (hsound : g.Sound vol moves) {c : StorageCall} (hbounds : c.InBounds vol) : (g.storage e c).2.2.Sound vol moves := by
  cases c with
  | execute isRead buf n offset =>
    cases isRead with
    | true =>
      simp only [GuestFile.storage, GuestFile.executed]
      split_ifs <;> exact hsound
    | false =>
      simp only [GuestFile.storage, GuestFile.executed]
      by_cases hn : n > Os0file.int32Max
      · rw [if_pos hn]
        exact hsound
      · rw [if_neg hn]
        cases hread : e.readGuest buf n.toInt32 with
        | error errno => exact hsound
        | ok bytes =>
          simp only
          split_ifs
          · exact hsound
          · exact sound_write hsound hbounds (length_of_readGuest hn hread)
  | getSize =>
    simp only [GuestFile.storage]
    split_ifs <;> exact hsound
  | seek offset =>
    simp only [GuestFile.storage]
    split_ifs with hlive hoffset
    · exact hsound
    · exact hsound
    · exact ⟨hsound.length, fun _ => hbounds.resolve_right hoffset⟩
  | truncate size =>
    simp only [GuestFile.storage]
    split_ifs with hsize hlive
    · exact hsound
    · exact hsound
    · refine ⟨?_, hsound.cursor⟩
      show (resized g.file.content size.toNat).length ≤ vol.room
      rw [length_resized]
      exact hbounds.resolve_right hsize
  | close =>
    simp only [GuestFile.storage]
    split_ifs <;> exact ⟨hsound.length, hsound.cursor⟩

/-- Every call does what it is for. -/
theorem wp_storage (hK : Regular moves vol K view) (hh : FileModule ioErrno h) (hshows : Shows fd view (!moves) g a k)
    (hsound : g.Sound vol moves)
    (hclose : ∀ e, wp (fileMachine guestMachine K) (h (.close fd)) (fun _ => Did fd view (!moves) (g.step e (.close fd))) (e, a, k))
    {c : StorageCall} (hbounds : c.InBounds vol) :
    wp (fileMachine guestMachine K) ((c.prog fd).through h) (fun _ => Served fd view moves (g.storage e c)) (e, a, k) := by
  cases c with
  | execute isRead buf n offset => exact wp_execute hK hh hshows hbounds
  | getSize => exact wp_getSize hK hh hshows hsound
  | seek offset => exact wp_storage_seek hK hh hshows hbounds
  | truncate size => exact wp_storage_truncate hK hh hshows hbounds
  | close => exact wp_storage_close hclose

end StorageAux

end

/-! ## The two builds -/

open StorageAux

/-- InnoDB's calls on one fd, through the guest and the Unix module. -/
abbrev UnixStorage (lc : Libc) (vol : Volume) (fd : Int32) : HostFilesInner Str × (OsFile × Unit) →
    List (Exchange StorageCall (Except (Option Int32) Nat) Export (HostFilesInner Str × (OsFile × Unit))) →
    HostFilesInner Str × (OsFile × Unit) → Prop :=
  Conversation (fun c => (StorageCall.prog fd c).through (Unix.fileProg lc)) (fileMachine guestMachine (Unix.disk lc vol))

/-- InnoDB's calls on one fd, through the guest and the Windows module. -/
abbrev WindowsStorage (toUppercase : Str → Str) (vol : Volume) (fd : Int32) : HostFilesInner WinPath × (OsFile × (Windows.LockMaps × Unit)) →
    List (Exchange StorageCall (Except (Option Int32) Nat) Export (HostFilesInner WinPath × (OsFile × (Windows.LockMaps × Unit)))) →
    HostFilesInner WinPath × (OsFile × (Windows.LockMaps × Unit)) → Prop :=
  Conversation (fun c => (StorageCall.prog fd c).through (Windows.fileProg toUppercase)) (fileMachine guestMachine (Windows.disk vol))

/-- The file that the calls leave. -/
def storageAfter (f : OsFile) (inputs : List (Export × StorageCall)) : GuestFile := (replay GuestFile.serve ⟨true, f⟩ inputs).2

/-- What the calls return, and what they leave of the memories that they are shown. -/
def storageOutputs (f : OsFile) (inputs : List (Export × StorageCall)) : List (Outcome (Except (Option Int32) Nat) × Export) :=
  (replay GuestFile.serve ⟨true, f⟩ inputs).1

namespace StorageAux

/-- The module of Unix runs the imports that the calls need, ... -/
theorem unix_module (lc : Libc) : FileModule (Unix.ioErrno lc) (Unix.fileProg lc) := by
  constructor <;> intros <;> rfl

/-- ... and so does that of Windows. -/
theorem windows_module (toUppercase : Str → Str) : FileModule Windows.ioErrno (Windows.fileProg toUppercase) := by
  constructor <;> intros <;> rfl

/-- What is kept from call to call. -/
def KeptFile {P κ : Type} (fd : Int32) (view : κ → OsFile) (vol : Volume) (moves : Bool) (g : GuestFile)
    (t : HostFilesInner P × κ) : Prop :=
  Shows fd view (!moves) g t.1 t.2 ∧ g.Sound vol moves

/-- One exchange. -/
theorem kept_snoc {P κ : Type} {Host : Sig} {fd : Int32} {view : κ → OsFile} {vol : Volume} {moves : Bool}
    {M : Machine (GuestMem.sum (FileSig P Host)) (Export × (HostFilesInner P × κ))} {h : FileImport → FileProg P Host Int64} {g : GuestFile}
    {x : Exchange StorageCall (Except (Option Int32) Nat) Export (HostFilesInner P × κ)} {tr : List (Event (GuestMem.sum (FileSig P Host)))}
    (hsound : g.Sound vol moves) (hbounds : x.call.InBounds vol)
    (hwp : wp M ((x.call.prog fd).through h) (fun _ => Served fd view moves (g.storage x.shown x.call)) (x.shown, x.before))
    (hrun : Runs M ((x.call.prog fd).through h) (x.shown, x.before) tr x.result (x.left, x.after)) :
    x.output = (.returned (g.serve x.shown x.call).1, (g.serve x.shown x.call).2.1) ∧
      KeptFile fd view vol moves (g.serve x.shown x.call).2.2 x.after := by
  obtain ⟨hresult, hleft, hshows⟩ := hrun.of_wp hwp
  exact ⟨Prod.ext hresult hleft, hshows, sound_storage hsound hbounds⟩

end StorageAux

namespace StorageAux

open HostParityAux

/-- A call that is one import. -/
theorem runs_import {P κ : Type} {Host : Sig} {M : Machine (GuestMem.sum (FileSig P Host)) (Export × (HostFilesInner P × κ))}
    {h : FileImport → FileProg P Host Int64} {c : StorageCall} {i : FileImport} {f : Int64 → Except (Option Int32) Nat}
    {s s' : Export × (HostFilesInner P × κ)} {rc : Int64} (hprog : c.prog 20000 = .call (S := GuestFiles) i fun rc => .ret (f rc))
    (hrun : ∃ tr, Runs M (h i) s tr (.returned rc) s') :
    ∃ tr, Runs M ((c.prog 20000).through h) s tr (.returned (f rc)) s' := by
  obtain ⟨tr, hrun⟩ := hrun
  rw [hprog]
  exact ⟨_, hrun.bind (.ret _ _)⟩

/-- The size of a file of three bytes, on each host. -/
theorem runs_getSize (m b : UInt8) (cursor : Nat) (hcursor : cursor ≤ 2 ^ 30)
    (hback : HostFiles.seekFrom (osWasiFileSeek (Int64.ofNat cursor)).value.toInt64 seekSet = .ok (.start (UInt64.ofNat cursor)))
    (hnat : (UInt64.ofNat cursor).toNat = cursor) :
    (∃ tr, Runs (fileMachine guestMachine (Unix.disk linux gigabyte)) ((StorageCall.getSize.prog 20000).through (Unix.fileProg linux))
      (.memory [m], unixAt ⟨[1, b, 3], cursor⟩) tr (.returned (.ok 3)) (.memory [m], unixAt ⟨[1, b, 3], cursor⟩)) ∧
    ∃ tr, Runs (fileMachine guestMachine (Windows.disk gigabyte)) ((StorageCall.getSize.prog 20000).through (Windows.fileProg fun s => s))
      (.memory [m], windowsAt ⟨[1, b, 3], cursor⟩) tr (.returned (.ok 3)) (.memory [m], windowsAt ⟨[1, b, 3], cursor⟩) := by
  have htarget : (⟨[1, b, 3], cursor⟩ : OsFile).target (.current 0) = cursor := by simp [OsFile.target]
  have htold := seeks ⟨[1, b, 3], cursor⟩ m 0 seekCur cursor rfl htarget hcursor
  have hend := seeks ⟨[1, b, 3], cursor⟩ m 0 seekEnd 3 rfl rfl (by decide)
  have hrestored := seeks ⟨[1, b, 3], 3⟩ m (osWasiFileSeek (Int64.ofNat cursor)).value.toInt64 seekSet cursor hback (congrArg Int.ofNat hnat) hcursor
  constructor
  · obtain ⟨⟨tr₁, h₁⟩, -⟩ := htold
    obtain ⟨⟨tr₂, h₂⟩, -⟩ := hend
    obtain ⟨⟨tr₃, h₃⟩, -⟩ := hrestored
    exact ⟨_, h₁.bind (h₂.bind (h₃.bind (.ret _ _)))⟩
  · obtain ⟨-, tr₁, h₁⟩ := htold
    obtain ⟨-, tr₂, h₂⟩ := hend
    obtain ⟨-, tr₃, h₃⟩ := hrestored
    exact ⟨_, h₁.bind (h₂.bind (h₃.bind (.ret _ _)))⟩

end StorageAux

end WasmtimeMysql
