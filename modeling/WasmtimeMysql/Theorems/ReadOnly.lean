import Mathlib.Logic.Function.Basic
import WasmtimeMysql.Lemmas.RegularFile
import WasmtimeMysql.Lib.Conversation

/-!
# Files that are open for reading only

A guest that opens a file without O_WRONLY is to get an fd that it cannot write through. `open` passes the access to std's `OpenOptions` in
two places: `write` is O_WRONLY, but `append(true)`, for O_APPEND, is access for writing as well. The fd is for reading only exactly when
the flags have no O_APPEND, or have O_DIRECTORY and never open anything (`readOnly_iff`).
-/

namespace WasmtimeMysql

open Effects Bytes

/-! ## The files of a host -/

/-- What a `File` is open on and for. -/
structure OpenDesc where
  object : Nat
  write : Bool
  append : Bool
  deriving DecidableEq, Repr

/-- The files of a host: the content of each, and what is open. -/
structure OsFiles where
  content : Nat → List UInt8
  opened : File → Option OpenDesc

namespace OsFiles

/-- The `File` has access for writing: `write(true)` gives it, and so does `append(true)`. -/
def Writes (k : OsFiles) (file : File) (d : OpenDesc) : Prop := k.opened file = some d ∧ (d.write || d.append) = true

/-- The files after a change of one. -/
def set (k : OsFiles) (object : Nat) (content : List UInt8) : OsFiles := { k with content := Function.update k.content object content }

end OsFiles

/-- The position of a write: the offset, or, on a host where appending goes first, the end of the file. -/
def OpenDesc.position (d : OpenDesc) (atEnd : Bool) (content : List UInt8) (offset : UInt64) : Nat :=
  if d.append && atEnd then content.length else offset.toNat

/-- What std documents of its files. A call may fail and leave everything as it was; a write, or a change of the length, through a `File`
without access for writing does. -/
def accessFs {P : Type} (atEnd : Bool) : Machine (Fs P) OsFiles
  | k, .openFile _ options, .ok file, k' => ∃ object,
    k'.opened = Function.update k.opened file (some ⟨object, options.write, options.append⟩) ∧
    (k'.content = k.content ∨ (options.truncate || options.create || options.createNew) = true ∧
      k'.content = Function.update k.content object [])
  | k, .openFile .., .error _, k' => k' = k
  | k, .drop file, _, k' => k' = { k with opened := Function.update k.opened file none }
  | k, .writeAt file buf offset, .ok n, k' => n ≤ buf.length ∧ ∃ d, k.Writes file d ∧
    k' = k.set d.object (writtenAt (k.content d.object) (buf.take n) (d.position atEnd (k.content d.object) offset))
  | k, .setLen file size, .ok (), k' => ∃ d, k.Writes file d ∧ k' = k.set d.object (resized (k.content d.object) size.toNat)
  | k, _, _, k' => k' = k

/-- A file module on a host. -/
structure DiskHost where
  Path : Type
  Own : Sig
  Rest : Type
  rest : Machine Own Rest
  atEnd : Bool
  prog : FileImport → FileProg Path Own Int64

namespace DiskHost

variable (D : DiskHost)

/-- What the module and the host keep. -/
abbrev Side : Type := HostFilesInner D.Path × (OsFiles × D.Rest)

/-- The machine of the module. -/
abbrev machine : Machine (GuestMem.sum (FileSig D.Path D.Own)) (Export × D.Side) :=
  fileMachine guestMachine ((accessFs D.atEnd).sum D.rest)

end DiskHost

/-- A Unix host. -/
@[reducible] def unixDisk (lc : Libc) (atEnd : Bool) : DiskHost := ⟨Str, Unix.FileHost, Unit, .any, atEnd, Unix.fileProg lc⟩

/-- Windows. -/
@[reducible] def windowsDisk (toUppercase : Str → Str) : DiskHost where
  Path := WinPath
  Own := Windows.FileHost
  Rest := Windows.LockMaps × Unit
  rest := (Machine.det (S := Windows.LockMaps.Sig) Windows.LockMaps.handle).sum .any
  atEnd := true
  prog := Windows.fileProg toUppercase

/-- Each host. On macOS a positional write keeps to its offset. -/
@[reducible] def HostOs.disk (toUppercase : Str → Str) : HostOs → DiskHost
  | .linux => unixDisk WasmtimeMysql.linux true
  | .macos => unixDisk WasmtimeMysql.macos false
  | .windows => windowsDisk toUppercase

/-! ## What is asked for -/

/-- The imports on one fd. -/
def FileImport.Through (fd : Int32) : FileImport → Prop
  | .close fd' => fd' = fd
  | .pread fd' .. => fd' = fd
  | .pwrite fd' .. => fd' = fd
  | .seek fd' .. => fd' = fd
  | .truncate fd' _ => fd' = fd
  | .sync fd' _ => fd' = fd
  | .lockExclusive fd' => fd' = fd
  | _ => False

/-- The imports that change a file. -/
def FileImport.Changes : FileImport → Prop
  | .pwrite .. => True
  | .truncate .. => True
  | _ => False

/-- The flags ask for nothing but reading: no O_WRONLY, no O_CREAT and no O_TRUNC. -/
def AsksToRead (flags : Int32) : Prop := flags &&& wasiOWronly = 0 ∧ flags &&& wasiOCreat = 0 ∧ flags &&& wasiOTrunc = 0

/-- What an fd opened with these flags can do: whatever is called through it, `pwrite` and `truncate` fail, and every file stays as it was
before the fd was opened. -/
def ReadOnly (D : DiskHost) (flags : Int32) : Prop :=
  ∀ (pathPtr mode : Int32) (e e' : Export) (t t' : D.Side) (tr : List (Event (GuestMem.sum (FileSig D.Path D.Own)))) (fd : Int32),
    Runs D.machine (D.prog (.openFile pathPtr flags mode)) (e, t) tr (.returned fd.toInt64) (e', t') → 0 ≤ fd →
    ∀ (log : List (Exchange FileImport Int64 Export D.Side)) (t'' : D.Side), Conversation D.prog D.machine t' log t'' →
      (∀ x ∈ log, x.call.Through fd) →
      t''.2.1.content = t.2.1.content ∧ ∀ x ∈ log, x.call.Changes → ∃ rc, x.result = .returned rc ∧ rc < 0

namespace ReadOnlyAux

/-- No file that the fd stands for may be written to, and every file is as it was. -/
structure Frozen {P Rest : Type} (fd : Int32) (content : Nat → List UInt8) (t : HostFilesInner P × (OsFiles × Rest)) : Prop where
  refused : ∀ file, t.1.files.find fd = some file → ∀ d, ¬t.2.1.Writes file d
  same : t.2.1.content = content

section
variable {P Rest : Type} {Own : Sig} {rest : Machine Own Rest} {atEnd : Bool} {fd : Int32} {content : Nat → List UInt8} {e : Export}
  {a : HostFilesInner P} {k : OsFiles × Rest}

/-- What else a host keeps does not matter. -/
theorem Frozen.of_eq (h : Frozen fd content (a, k)) {k' : OsFiles × Rest} (hk : k'.1 = k.1) : Frozen fd content (a, k') := by
  refine ⟨?_, ?_⟩
  · rw [hk]
    exact h.refused
  · rw [hk]
    exact h.same

/-! ### Opening -/

/-- If an fd came out, it is for reading only. -/
def OpensFrozen (content : Nat → List UInt8) (o : Outcome Int32) (t : HostFilesInner P × (OsFiles × Rest)) : Prop :=
  ∀ fd, o = .returned fd → 0 ≤ fd → Frozen fd content t

/-- An open that fails opens nothing. -/
theorem opensFrozen_negErrno (errno : Errno) {t : HostFilesInner P × (OsFiles × Rest)} :
    OpensFrozen content (.returned (negErrno errno)) t := by
  rintro fd ⟨⟩ hfd
  exact absurd (negErrno_lt_zero errno) (Int32.not_lt.mpr hfd)

/-- The fd as the import returns it. -/
theorem OpensFrozen.returned {o : Outcome Int32} {t : HostFilesInner P × (OsFiles × Rest)} (h : OpensFrozen content o t) (fd : Int32)
    (ho : o.map Int32.toInt64 = .returned fd.toInt64) (hfd : 0 ≤ fd) : Frozen fd content t := by
  cases o with
  | panicked => cases ho
  | returned fd' =>
    have hsame : fd'.toInt64 = fd.toInt64 := Outcome.returned.inj ho
    rw [← Int64.toInt_inj, Int32.toInt_toInt64, Int32.toInt_toInt64, Int32.toInt_inj] at hsame
    exact h fd (by rw [hsame]) hfd

/-- A file without access for writing is put into the table. -/
theorem frozen_insert {file : File} (hfile : ∀ d, ¬k.1.Writes file d) (hsame : k.1.content = content) :
    OpensFrozen content (.returned a.files.next) ({ a with files := (a.files.insert file).2 }, k) := by
  rintro fd ⟨⟩ -
  refine ⟨?_, hsame⟩
  intro file' hfind
  rw [FdTable.find_insert, if_pos rfl] at hfind
  cases hfind
  exact hfile

/-- A file that is dropped gives no other file access. -/
theorem not_writes_drop {k : OsFiles} {old file : File} (hfile : ∀ d, ¬k.Writes file d) (d : OpenDesc) :
    ¬OsFiles.Writes { k with opened := Function.update k.opened old none } file d := by
  rintro ⟨hopened, hwrite⟩
  by_cases hold : file = old
  · subst hold
    simp at hopened
  · simp only [Function.update_of_ne hold] at hopened
    exact hfile d ⟨hopened, hwrite⟩

/-- What is inserted can write to no file. -/
theorem wp_insertFile_frozen {file : File} (hfile : ∀ d, ¬k.1.Writes file d) (hsame : k.1.content = content) :
    wp (fileMachine guestMachine ((accessFs atEnd).sum rest)) (HostFiles.insertFile file)
      (fun _ o s' => OpensFrozen content o s'.2) (e, a, k) := by
  refine wp_insertFile (fun _ _ => frozen_insert hfile hsame) ?_
  rintro tr old r k' - ⟨hdrop, -⟩
  refine frozen_insert ?_ ?_
  · rw [hdrop]
    exact not_writes_drop hfile
  · rw [hdrop]
    exact hsame

/-- What the options come to when the flags only ask to read. -/
theorem not_writes_of_opened {flags : Int32} (hflags : AsksToRead flags) (happend : flags &&& wasiOAppend = 0) {path : P} {file : File}
    {k k' : OsFiles} (h : accessFs atEnd k (.openFile path (openOptions flags)) (.ok file) k') :
    (∀ d, ¬k'.Writes file d) ∧ k'.content = k.content := by
  obtain ⟨hwronly, hcreat, htrunc⟩ := hflags
  obtain ⟨object, hopened, hcontent⟩ := h
  constructor
  · rintro d ⟨hd, hwrite⟩
    rw [hopened, Function.update_self] at hd
    cases hd
    simp [openOptions, hwronly, happend] at hwrite
  · rcases hcontent with hcontent | ⟨hmakes, -⟩
    · exact hcontent
    · simp [openOptions, hcreat, htrunc] at hmakes

/-- Nothing is opened, or a file without access for writing. -/
theorem wp_openHost_frozen (os : PathOs) {a : HostFilesInner os.Path} {ioErrno : IoError → Errno} {guestPath : Str} {flags : Int32}
    (hflags : AsksToRead flags) (hopens : flags &&& wasiOAppend = 0 ∨ flags &&& wasiODirectory ≠ 0)
    {Q : List (Event (GuestMem.sum (FileSig os.Path Own))) → Outcome (Except Errno (os.Path × File)) →
      Export × (HostFilesInner os.Path × (OsFiles × Rest)) → Prop}
    (hpanic : ∀ tr, Q tr .panicked (e, a, k)) (hfail : ∀ tr errno k', Q tr (.returned (.error errno)) (e, a, k'))
    (hopen : ∀ tr path file k', (∀ d, ¬k'.1.Writes file d) → k'.1.content = k.1.content → Q tr (.returned (.ok (path, file))) (e, a, k')) :
    wp (fileMachine guestMachine ((accessFs atEnd).sum rest)) (HostFiles.openHost os ioErrno guestPath flags) Q (e, a, k) := by
  refine wp_openHost os hpanic (fun tr errno => hfail tr errno k) (fun tr path err k' _ => hfail tr _ k') ?_
  intro tr path file k' hdirectory hm
  obtain ⟨hfile, hsame⟩ := not_writes_of_opened hflags (hopens.resolve_right (not_not_intro hdirectory)) hm.1
  exact hopen tr path file k' hfile hsame

/-- `open` on Unix without a right to write. -/
theorem wp_unix_open {flags : Int32} (hflags : AsksToRead flags)
    (hopens : flags &&& wasiOAppend = 0 ∨ flags &&& wasiODirectory ≠ 0) (lc : Libc) (pathPtr : Int32) {a : HostFilesInner Str}
    {rest : Machine Unix.FileHost Rest} :
    wp (fileMachine guestMachine ((accessFs atEnd).sum rest)) (Unix.openFile lc pathPtr flags)
      (fun _ o s' => OpensFrozen k.1.content o s'.2) (e, a, k) := by
  simp only [Unix.openFile, wp_bind, wp_readCstr, wpNext_returned]
  cases e.readCstr pathPtr with
  | error errno => exact opensFrozen_negErrno errno
  | ok path =>
    simp only [wp_bind]
    refine wp_openHost_frozen unixPaths hflags hopens (fun _ _ h => by cases h) ?_ ?_
    · intro tr errno k'
      exact opensFrozen_negErrno errno
    · intro tr path file k' hfile hsame
      exact wp_insertFile_frozen hfile hsame

/-- `open` on Windows without a right to write. -/
theorem wp_windows_open {flags : Int32} (hflags : AsksToRead flags)
    (hopens : flags &&& wasiOAppend = 0 ∨ flags &&& wasiODirectory ≠ 0) (pathPtr : Int32) {a : HostFilesInner WinPath}
    {rest : Machine Windows.FileHost Rest} :
    wp (fileMachine guestMachine ((accessFs atEnd).sum rest)) (Windows.openFile pathPtr flags)
      (fun _ o s' => OpensFrozen k.1.content o s'.2) (e, a, k) := by
  simp only [Windows.openFile, wp_bind, wp_readCstr, wpNext_returned]
  cases e.readCstr pathPtr with
  | error errno => exact opensFrozen_negErrno errno
  | ok path =>
    simp only [wp_bind]
    refine wp_openHost_frozen windowsPaths hflags hopens (fun _ _ h => by cases h) ?_ ?_
    · intro tr errno k'
      exact opensFrozen_negErrno errno
    · intro tr path file k' hfile hsame
      simp only [wpNext_returned, wp_bind, Windows.win32, wp_own]
      rintro canonical k₁ ⟨-, hk₁⟩
      rw [← hk₁] at hfile hsame
      refine wp_mono (wp_insertFile_frozen hfile hsame) ?_
      intro tr' o s' hopened
      obtain ⟨e', a', k'⟩ := s'
      cases o with
      | panicked =>
        intro _ h
        cases h
      | returned fd =>
        simp only [wpNext_returned, wp_bind, Windows.lockMaps, wp_own]
        rintro r k₂ ⟨-, hk₂⟩
        rintro fd' ⟨⟩ hfd
        have hfrozen := hopened fd rfl hfd
        exact hfrozen.of_eq hk₂

/-! ### The calls that read -/

/-- The command changes neither the table nor a file of the host. -/
def Reads : (GuestMem.sum (FileSig P Own)).Cmd → Prop
  | .inl _ => True
  | .inr (.inl (.files (.get _))) => True
  | .inr (.inr (.inl (.readAt ..))) => True
  | .inr (.inr (.inl (.seek ..))) => True
  | .inr (.inr (.inl (.syncData _))) => True
  | .inr (.inr (.inl (.syncAll _))) => True
  | .inr (.inr (.inr _)) => True
  | _ => False

/-- A command that reads leaves the fd as it is. -/
theorem Reads.frozen {c : (GuestMem.sum (FileSig P Own)).Cmd} (hc : Reads c) {r : (GuestMem.sum (FileSig P Own)).Resp c}
    {s s' : Export × (HostFilesInner P × (OsFiles × Rest))} (hm : fileMachine guestMachine ((accessFs atEnd).sum rest) s c r s')
    (h : Frozen fd content s.2) : Frozen fd content s'.2 := by
  obtain ⟨e, a, k, u⟩ := s
  obtain ⟨e', a', k', u'⟩ := s'
  rcases c with c | c | c | c
  · cases hm.2
    exact h
  · rcases c with _ | c
    · exact hc.elim
    · cases c with
      | get fd =>
        obtain ⟨⟨hinner, hk⟩, -⟩ := hm
        cases hk
        cases hinner
        exact h
      | _ => exact hc.elim
  · obtain ⟨⟨⟨hfs, -⟩, ha⟩, -⟩ := hm
    cases ha
    have hk : k' = k := by
      cases c with
      | openFile => exact hc.elim
      | drop => exact hc.elim
      | writeAt => exact hc.elim
      | setLen => exact hc.elim
      | _ => exact hfs
    exact h.of_eq hk
  · obtain ⟨⟨⟨-, hk⟩, ha⟩, -⟩ := hm
    cases ha
    exact h.of_eq hk

/-- What a call leaves and returns: the fd stays as it is, and a change fails. -/
def Kept (fd : Int32) (content : Nat → List UInt8) (c : FileImport) (o : Outcome Int64) (t : HostFilesInner P × (OsFiles × Rest)) : Prop :=
  Frozen fd content t ∧ (c.Changes → ∃ rc, o = .returned rc ∧ rc < 0)

/-- A call that reads and changes nothing. -/
theorem kept_of_reads (h : Frozen fd content (a, k)) {c : FileImport} (hc : ¬c.Changes) {p : FileProg P Own Int64} (hp : p.Only Reads) :
    wp (fileMachine guestMachine ((accessFs atEnd).sum rest)) p (fun _ o s' => Kept fd content c o s'.2) (e, a, k) := by
  refine wp_mono (wp_of_only hp (I := fun s => Frozen fd content s.2) ?_ h) ?_
  · intro s cmd r s' hcmd hm hs
    exact hcmd.frozen hm hs
  · intro tr o s' hs
    exact ⟨hs, fun hchanges => absurd hchanges hc⟩

/-- A result that is mapped asks for nothing more. -/
theorem reads_map {α β : Type} {p : FileProg P Own α} {f : α → β} (hp : p.Only Reads) : (f <$> p).Only Reads := by
  rw [← bind_pure_comp]
  exact hp.bind fun _ => trivial

variable (ioErrno : IoError → Errno)

/-- `pread` under the mutex only reads. -/
theorem reads_preadFile (fd : Int32) (len : Nat) (offset : UInt64) :
    (HostFiles.preadFile ioErrno fd len offset : FileProg P Own _).Only Reads := by
  refine .step trivial fun found => ?_
  cases found with
  | none => trivial
  | some file =>
    refine .step trivial fun answer => ?_
    cases answer with
    | error err => trivial
    | ok answer =>
      simp only
      split <;> trivial

/-- `pread` only reads the file. -/
theorem reads_pread (fd bufPtr len : Int32) (offset : Int64) :
    (HostFiles.pread ioErrno fd bufPtr len offset : FileProg P Own _).Only Reads := by
  unfold HostFiles.pread
  split
  · trivial
  · refine .step trivial fun _ => .bind (reads_preadFile ioErrno fd _ _) fun answer => ?_
    obtain ⟨rc, data⟩ := answer
    simp only
    split
    · trivial
    · unfold sliceTo
      split
      · refine .step trivial fun written => ?_
        cases written <;> trivial
      · trivial

/-- `seek` writes to no file. -/
theorem reads_seek (fd : Int32) (offset : Int64) (whence : Int32) :
    (HostFiles.seek ioErrno fd offset whence : FileProg P Own _).Only Reads := by
  refine .step trivial fun found => ?_
  cases found with
  | none => trivial
  | some file =>
    simp only
    split
    · trivial
    · refine .step trivial fun answer => ?_
      cases answer with
      | error err => trivial
      | ok pos =>
        simp only
        split <;> trivial

/-- `sync` writes to no file. -/
theorem reads_sync (fd dataOnly : Int32) : (HostFiles.sync ioErrno fd dataOnly : FileProg P Own _).Only Reads := by
  refine .step trivial fun found => ?_
  cases found with
  | none => trivial
  | some file =>
    simp only
    split
    · exact .step trivial fun _ => trivial
    · exact .step trivial fun _ => trivial

/-! ### The calls that would change the file -/

/-- A negated errno is negative. -/
theorem negative_negErrno (errno : Errno) : ∃ rc, Outcome.returned (negErrno errno).toInt64 = .returned rc ∧ rc < 0 := by
  refine ⟨_, rfl, ?_⟩
  rw [Int64.lt_iff_toInt_lt, Int32.toInt_toInt64]
  exact Int32.lt_iff_toInt_lt.mp (negErrno_lt_zero errno)

/-- `pwrite` fails, or has nothing to write. -/
theorem wp_pwrite_kept (h : Frozen fd content (a, k)) (bufPtr len : Int32) (offset : Int64) :
    wp (fileMachine guestMachine ((accessFs atEnd).sum rest)) (Int32.toInt64 <$> HostFiles.pwrite ioErrno fd bufPtr len offset)
      (fun _ o s' => Kept fd content (.pwrite fd bufPtr len offset) o s'.2) (e, a, k) := by
  simp only [wp_map, HostFiles.pwrite, wp_bind, wp_readGuest, wpNext_returned]
  cases e.readGuest bufPtr len with
  | error errno => exact ⟨h, fun _ => negative_negErrno _⟩
  | ok buf =>
    simp only [HostFiles.pwriteFile, wp_bind, wp_filesGet, wpNext_returned]
    cases hfind : a.files.find fd with
    | none => exact ⟨h, fun _ => negative_negErrno _⟩
    | some file =>
      simp only [wp_bind, wp_fs, wpNext_returned]
      rintro (err | n) k' ⟨hfs, hrest⟩
      · exact ⟨h.of_eq hfs, fun _ => negative_negErrno _⟩
      · obtain ⟨-, d, hwrites, -⟩ := hfs
        exact absurd hwrites (h.refused file hfind d)

/-- `truncate` fails. -/
theorem wp_truncate_kept (h : Frozen fd content (a, k)) (size : Int64) :
    wp (fileMachine guestMachine ((accessFs atEnd).sum rest)) (Int32.toInt64 <$> HostFiles.truncate ioErrno fd size)
      (fun _ o s' => Kept fd content (.truncate fd size) o s'.2) (e, a, k) := by
  simp only [wp_map, HostFiles.truncate]
  split
  · exact ⟨h, fun _ => negative_negErrno _⟩
  · simp only [wp_bind, wp_filesGet, wpNext_returned]
    cases hfind : a.files.find fd with
    | none => exact ⟨h, fun _ => negative_negErrno _⟩
    | some file =>
      simp only [wp_bind, wp_fs, wpNext_returned]
      rintro (err | ⟨⟩) k' ⟨hfs, hrest⟩
      · exact ⟨h.of_eq hfs, fun _ => negative_negErrno _⟩
      · obtain ⟨d, hwrites, -⟩ := hfs
        exact absurd hwrites (h.refused file hfind d)

/-- The fd is taken out of the table. -/
theorem Frozen.remove (h : Frozen fd content (a, k)) : Frozen fd content ({ a with files := a.files.remove fd }, k) := by
  refine ⟨?_, h.same⟩
  intro file hfind
  rw [FdTable.find_remove, if_pos rfl] at hfind
  cases hfind

/-- The `File` is dropped. -/
theorem Frozen.drop (h : Frozen fd content (a, k)) {old : File} {k' : OsFiles × Rest}
    (hk : k'.1 = { k.1 with opened := Function.update k.1.opened old none }) : Frozen fd content (a, k') := by
  refine ⟨?_, ?_⟩
  · rw [hk]
    exact fun file hfind => not_writes_drop (h.refused file hfind)
  · rw [hk]
    exact h.same

end

section
variable {Rest : Type} {atEnd : Bool} {fd : Int32} {content : Nat → List UInt8} {e : Export} {k : OsFiles × Rest}

/-- No import on Unix changes the content through such an fd. -/
theorem wp_unix_kept (lc : Libc) {rest : Machine Unix.FileHost Rest} {a : HostFilesInner Str} (h : Frozen fd content (a, k))
    {c : FileImport} (hc : c.Through fd) :
    wp (fileMachine guestMachine ((accessFs atEnd).sum rest)) (Unix.fileProg lc c) (fun _ o s' => Kept fd content c o s'.2) (e, a, k) := by
  cases c with
  | openFile => exact hc.elim
  | syncParent => exact hc.elim
  | close _ =>
    cases hc
    simp only [Unix.fileProg, wp_map, Unix.closeFile, wp_bind, wp_filesRemove, wpNext_returned]
    cases a.files.find fd with
    | none => exact ⟨h.remove, fun h => by cases h⟩
    | some file =>
      simp only [wp_bind, wp_fs, wpNext_returned]
      rintro r k' ⟨hdrop, -⟩
      exact ⟨h.remove.drop hdrop, fun h => by cases h⟩
  | pread _ bufPtr len offset => exact kept_of_reads h id (reads_map (reads_pread _ _ bufPtr len offset))
  | pwrite _ bufPtr len offset =>
    cases hc
    exact wp_pwrite_kept _ h bufPtr len offset
  | seek _ offset whence => exact kept_of_reads h id (reads_seek _ _ offset whence)
  | truncate _ size =>
    cases hc
    exact wp_truncate_kept _ h size
  | sync _ dataOnly => exact kept_of_reads h id (reads_map (reads_sync _ _ dataOnly))
  | lockExclusive fd' =>
    refine kept_of_reads h id (reads_map (.step trivial fun found => ?_))
    cases found with
    | none => trivial
    | some file =>
      refine .step trivial fun rc => ?_
      split
      · trivial
      · exact .step trivial fun _ => trivial

/-- `lock_exclusive` writes to no file. -/
theorem reads_windowsLock (toUppercase : Str → Str) (fd : Int32) : (Windows.lockExclusive toUppercase fd).Only Reads := by
  refine .step trivial fun found => ?_
  cases found with
  | none => trivial
  | some lockPath =>
    refine .step trivial fun held => ?_
    split
    · trivial
    · refine .step trivial fun file => ?_
      cases file with
      | none => trivial
      | some _ =>
        refine .step trivial fun created => ?_
        cases created with
        | none => exact .step trivial fun _ => trivial
        | some handle =>
          refine .step trivial fun code => ?_
          split
          · exact .step trivial fun _ => trivial
          · refine .bind (.step trivial fun replaced => ?_) fun _ => trivial
            cases replaced with
            | none => trivial
            | some old => exact .step trivial fun _ => trivial

/-- No import on Windows changes the content through such an fd. -/
theorem wp_windows_kept (toUppercase : Str → Str) {rest : Machine Windows.FileHost Rest} {a : HostFilesInner WinPath}
    (h : Frozen fd content (a, k)) {c : FileImport} (hc : c.Through fd) :
    wp (fileMachine guestMachine ((accessFs atEnd).sum rest)) (Windows.fileProg toUppercase c)
      (fun _ o s' => Kept fd content c o s'.2) (e, a, k) := by
  cases c with
  | openFile => exact hc.elim
  | syncParent => exact hc.elim
  | close _ =>
    cases hc
    simp only [Windows.fileProg, wp_map, Windows.closeFile, wp_bind, wp_filesRemove, wpNext_returned]
    cases a.files.find fd with
    | none => exact ⟨h.remove, fun h => by cases h⟩
    | some file =>
      simp only [wp_bind, wp_fs, Windows.lockMaps, wp_own, wpNext_returned]
      rintro r k₁ ⟨hdrop, -⟩ r' k₂ ⟨-, hk₂⟩
      exact ⟨(h.remove.drop hdrop).of_eq hk₂, fun h => by cases h⟩
  | pread _ bufPtr len offset => exact kept_of_reads h id (reads_map (reads_pread _ _ bufPtr len offset))
  | pwrite _ bufPtr len offset =>
    cases hc
    exact wp_pwrite_kept _ h bufPtr len offset
  | seek _ offset whence => exact kept_of_reads h id (reads_seek _ _ offset whence)
  | truncate _ size =>
    cases hc
    exact wp_truncate_kept _ h size
  | sync _ dataOnly => exact kept_of_reads h id (reads_map (reads_sync _ _ dataOnly))
  | lockExclusive fd' => exact kept_of_reads h id (reads_map (reads_windowsLock toUppercase fd'))

end

/-- Without O_APPEND the fd is for reading only: `open` opens a file without access for writing, and every later call keeps it so. -/
theorem readOnly_of_opens {D : DiskHost} {flags : Int32}
    (hopen : ∀ pathPtr mode e t, wp D.machine (D.prog (.openFile pathPtr flags mode))
      (fun _ o s' => ∀ fd, o = .returned fd.toInt64 → 0 ≤ fd → Frozen fd t.2.1.content s'.2) (e, t))
    (hcall : ∀ c fd content e t, c.Through fd → Frozen fd content t →
      wp D.machine (D.prog c) (fun _ o s' => Kept fd content c o s'.2) (e, t)) :
    ReadOnly D flags := by
  intro pathPtr mode e e' t t' tr fd hrun hfd log t'' htalk hthrough
  have hfrozen : Frozen fd t.2.1.content t' := hrun.of_wp (hopen pathPtr mode e t) fd rfl hfd
  obtain ⟨hlast, hchanges⟩ := Conversation.invariant (I := Frozen fd t.2.1.content)
    (T := fun x : Exchange FileImport Int64 Export D.Side => x.call.Changes → ∃ rc, x.result = .returned rc ∧ rc < 0) hfrozen
    (fun x tr hbefore hc hrun => hrun.of_wp (hcall x.call fd _ x.shown x.before hc hbefore)) htalk hthrough
  exact ⟨hlast.same, hchanges⟩

/-! ### With O_APPEND -/

/-- A guest memory with the path `/f` in it. -/
def pathMemory : Export := .memory [47, 102, 0]

/-- One directory for the whole of the guest's tree, and no files. -/
def oneRoot {P : Type} (root : P) : HostFilesInner P := ⟨[⟨['/'], root⟩], .empty fileFdBase File⟩

/-- Nothing is open, and every file is empty. -/
def emptyFiles : OsFiles := ⟨fun _ => [], fun _ => none⟩

/-- A file that was opened with these flags. -/
def openedWith (flags : Int32) : OsFiles :=
  { emptyFiles with
    opened := Function.update emptyFiles.opened ⟨3⟩ (some ⟨0, (openOptions flags).write, (openOptions flags).append⟩) }

/-- The first file of the host can be opened with any flags. -/
theorem accessFs_opened {P : Type} {atEnd : Bool} {path : P} {flags : Int32} :
    accessFs atEnd emptyFiles (.openFile path (openOptions flags)) (.ok ⟨3⟩) (openedWith flags) := ⟨0, rfl, .inl rfl⟩

/-- O_APPEND is access for writing. -/
theorem writes_of_append {flags : Int32} (happend : flags &&& wasiOAppend ≠ 0) :
    (openedWith flags).Writes ⟨3⟩ ⟨0, (openOptions flags).write, (openOptions flags).append⟩ := by
  refine ⟨rfl, ?_⟩
  simp [openOptions, happend]

/-- A write through an fd for reading only fails, wherever `open` has led. -/
theorem refuses_of_readOnly {D : DiskHost} {flags : Int32} (h : ReadOnly D flags)
    (pathPtr mode bufPtr len : Int32) (offset : Int64) (e : Export)
    (t : D.Side) : wp D.machine (D.prog (.openFile pathPtr flags mode)) (fun _ o s' => ∀ fd, o = .returned fd.toInt64 → 0 ≤ fd →
      wp D.machine (D.prog (.pwrite fd bufPtr len offset)) (fun _ o' _ => ∃ rc, o' = .returned rc ∧ rc < 0) s') (e, t) := by
  refine wp_iff_runs.mpr ?_
  rintro tr o ⟨e', t'⟩ hrun fd rfl hfd
  refine wp_iff_runs.mpr ?_
  rintro tr' o' ⟨e'', t''⟩ hwrite
  have htalk : Conversation D.prog D.machine t' _ t'' := .snoc ⟨e', .pwrite fd bufPtr len offset, t', o', e'', t''⟩ .nil hwrite
  obtain ⟨-, hchanges⟩ := h pathPtr mode e e' t t' tr fd hrun hfd _ t'' htalk (by simp [FileImport.Through])
  exact hchanges _ (.head _) trivial

/-- The host may do a write that it does not refuse. -/
theorem not_refuses_pwrite {P Rest : Type} {Own : Sig} {rest : Machine Own Rest} {atEnd : Bool} {ioErrno : IoError → Errno}
    {a : HostFilesInner P} {k : OsFiles × Rest} {fd : Int32} {file : File} {d : OpenDesc} (hfind : a.files.find fd = some file)
    (hwrites : k.1.Writes file d) :
    ¬wp (fileMachine guestMachine ((accessFs atEnd).sum rest)) (HostFiles.pwrite ioErrno fd 0 1 0)
      (fun _ o _ => ∃ rc, o.map Int32.toInt64 = .returned rc ∧ rc < 0) (pathMemory, a, k) := by
  have hread : pathMemory.readGuest 0 1 = .ok [47] := rfl
  intro h
  simp only [HostFiles.pwrite, wp_bind, wp_readGuest, hread, wpNext_returned, HostFiles.pwriteFile, wp_filesGet, hfind, wp_fs] at h
  obtain ⟨rc, hrc, hneg⟩ := h (.ok 1) (_, k.2) ⟨⟨Nat.le_refl 1, d, hwrites, rfl⟩, rfl⟩
  cases hrc
  exact absurd hneg (by decide)

/-- With `O_APPEND` the file of Unix can be appended to. -/
theorem not_readOnly_unix {lc : Libc} {atEnd : Bool} {flags : Int32} (happend : flags &&& wasiOAppend ≠ 0)
    (hdirectory : flags &&& wasiODirectory = 0) : ¬ReadOnly (unixDisk lc atEnd) flags := by
  have hcstr : pathMemory.readCstr 0 = .ok "/f".toList := by decide +kernel
  have hpath : resolve unixPaths (oneRoot "/srv".toList).preopens "/f".toList = .returned (.ok "/srv/f".toList) := by decide +kernel
  have hfree : (oneRoot "/srv".toList).files.find (oneRoot "/srv".toList).files.next = none := rfl
  intro h
  have hopen := refuses_of_readOnly h 0 0 0 1 0 pathMemory (oneRoot "/srv".toList, emptyFiles, ())
  simp only [Unix.fileProg, wp_map, Unix.openFile, wp_bind, wp_readCstr, hcstr, wpNext_returned, HostFiles.openHost, HostFiles.resolve,
    wp_getPreopens, wp_ofOutcome, hpath, hdirectory, ne_eq, not_true_eq_false, if_false, wp_fs] at hopen
  have hinsert := hopen (.ok ⟨3⟩) (openedWith flags, ()) ⟨accessFs_opened, rfl⟩
  simp only [HostFiles.insertFile, Prog.pure_eq, wp_ret, wpNext_returned, wp_bind, wp_filesInsert, hfree] at hinsert
  exact not_refuses_pwrite rfl (writes_of_append happend) (hinsert 20000 rfl (by decide))

/-- So can that of Windows. -/
theorem not_readOnly_windows {toUppercase : Str → Str} {flags : Int32} (happend : flags &&& wasiOAppend ≠ 0)
    (hdirectory : flags &&& wasiODirectory = 0) : ¬ReadOnly (windowsDisk toUppercase) flags := by
  let root : WinPath := ⟨"C:\\".toList⟩
  have hcstr : pathMemory.readCstr 0 = .ok "/f".toList := by decide +kernel
  have hpath : resolve windowsPaths (oneRoot root).preopens "/f".toList = .returned (.ok ⟨"C:\\f".toList⟩) := by
    decide +kernel
  have hfree : (oneRoot root).files.find (oneRoot root).files.next = none := rfl
  intro h
  have hopen := refuses_of_readOnly h 0 0 0 1 0 pathMemory (oneRoot root, emptyFiles, ⟨fun _ => none, fun _ => none⟩, ())
  simp only [Windows.fileProg, wp_map, Windows.openFile, wp_bind, wp_readCstr, hcstr, wpNext_returned, HostFiles.openHost,
    HostFiles.resolve, wp_getPreopens, wp_ofOutcome, hpath, hdirectory, ne_eq, not_true_eq_false, if_false, wp_fs] at hopen
  have hcanonical := hopen (.ok ⟨3⟩) (openedWith flags, ⟨fun _ => none, fun _ => none⟩, ()) ⟨accessFs_opened, rfl⟩
  simp only [Prog.pure_eq, wp_ret, wpNext_returned, wp_bind, Windows.win32, wp_own] at hcanonical
  have hinsert := hcanonical (.error ⟨none⟩) (openedWith flags, ⟨fun _ => none, fun _ => none⟩, ()) ⟨⟨trivial, rfl⟩, rfl⟩
  simp only [HostFiles.insertFile, Prog.pure_eq, wp_ret, wpNext_returned, wp_bind, wp_filesInsert, hfree, Windows.lockMaps, wp_own] at hinsert
  exact not_refuses_pwrite rfl (writes_of_append happend) (hinsert () (openedWith flags, _, ()) ⟨⟨rfl, rfl⟩, rfl⟩ 20000 rfl (by decide))

/-- Without it the file of Unix cannot be written to. -/
theorem readOnly_unix {lc : Libc} {atEnd : Bool} {flags : Int32} (hflags : AsksToRead flags)
    (hopens : flags &&& wasiOAppend = 0 ∨ flags &&& wasiODirectory ≠ 0) : ReadOnly (unixDisk lc atEnd) flags := by
  refine readOnly_of_opens (D := unixDisk lc atEnd) ?_ ?_
  · intro pathPtr mode e t
    refine wp_map.mpr (wp_mono (wp_unix_open hflags hopens lc pathPtr) ?_)
    intro tr o s' hopened
    exact hopened.returned
  · intro c fd content e t hc ht
    exact wp_unix_kept lc ht hc

/-- Nor can that of Windows. -/
theorem readOnly_windows {toUppercase : Str → Str} {flags : Int32} (hflags : AsksToRead flags)
    (hopens : flags &&& wasiOAppend = 0 ∨ flags &&& wasiODirectory ≠ 0) : ReadOnly (windowsDisk toUppercase) flags := by
  refine readOnly_of_opens (D := windowsDisk toUppercase) ?_ ?_
  · intro pathPtr mode e t
    refine wp_map.mpr (wp_mono (wp_windows_open hflags hopens pathPtr) ?_)
    intro tr o s' hopened
    exact hopened.returned
  · intro c fd content e t hc ht
    exact wp_windows_kept toUppercase ht hc

end ReadOnlyAux

open ReadOnlyAux in
/-- An fd opened without O_WRONLY, O_CREAT and O_TRUNC is for reading only exactly when the flags have no O_APPEND, or have O_DIRECTORY,
with which nothing is opened. -/
theorem readOnly_iff (os : HostOs) (toUppercase : Str → Str) (flags : Int32) (hflags : AsksToRead flags) :
    ReadOnly (os.disk toUppercase) flags ↔ flags &&& wasiOAppend = 0 ∨ flags &&& wasiODirectory ≠ 0 := by
  constructor
  · intro h
    by_contra hopens
    rw [not_or, not_not] at hopens
    cases os with
    | linux => exact not_readOnly_unix hopens.1 hopens.2 h
    | macos => exact not_readOnly_unix hopens.1 hopens.2 h
    | windows => exact not_readOnly_windows hopens.1 hopens.2 h
  · intro hopens
    cases os with
    | linux => exact readOnly_unix hflags hopens
    | macos => exact readOnly_unix hflags hopens
    | windows => exact readOnly_windows hflags hopens

/-- O_RDONLY alone. -/
theorem readOnly_rdonly : ReadOnly (HostOs.disk id .linux) wasiORdonly :=
  (readOnly_iff .linux id wasiORdonly ⟨by decide, by decide, by decide⟩).mpr (.inl (by decide))

open ReadOnlyAux in
/-- O_RDONLY with O_APPEND: the guest can write through the fd. -/
theorem not_readOnly_append : ¬∀ (os : HostOs) (toUppercase : Str → Str) (flags : Int32), AsksToRead flags →
    ReadOnly (os.disk toUppercase) flags := by
  intro h
  have hwrites : ¬ReadOnly (unixDisk linux true) (wasiORdonly ||| wasiOAppend) := not_readOnly_unix (by decide) (by decide)
  exact hwrites (h .linux id (wasiORdonly ||| wasiOAppend) ⟨by decide, by decide, by decide⟩)

end WasmtimeMysql
