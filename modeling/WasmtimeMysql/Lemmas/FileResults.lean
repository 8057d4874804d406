import WasmtimeMysql.Lemmas.FileWp
import WasmtimeMysql.Lemmas.Results

/-!
# The results of the file imports on Unix

What each import returns is right for its trace (`fileTells_of_runs`). The host may answer anything, except that a transfer moves at
most what it was asked to, and that a lock request returns 0 or fails.
-/

namespace WasmtimeMysql.Unix

open Effects Bytes

/-! ## What the steps of an import say -/

/-- A call to std's files failed. A position that is no `i64` fails its conversion. -/
def fsFailed : (c : Fs.Cmd Str) → c.Resp → Bool
  | .openFile .., .error _ => true
  | .readAt .., .error _ => true
  | .writeAt .., .error _ => true
  | .seek .., .error _ => true
  | .seek .., .ok pos => decide (2 ^ 63 ≤ pos.toNat)
  | .setLen .., .error _ => true
  | .syncData _, .error _ => true
  | .syncAll _, .error _ => true
  | _, _ => false

/-- The step failed. -/
def fileStepFailed : Event Files → Bool
  | ⟨.inl c, r⟩ => memFailed c r
  | ⟨.inr (.inl .preopens), _⟩ => false
  | ⟨.inr (.inl (.files (.insert _))), _⟩ => false
  | ⟨.inr (.inl (.files (.get _))), found⟩ => found.isNone
  | ⟨.inr (.inl (.files (.remove _))), found⟩ => found.isNone
  | ⟨.inr (.inl (.files (.modify ..))), _⟩ => false
  | ⟨.inr (.inr (.inl c)), r⟩ => fsFailed c r
  | ⟨.inr (.inr (.inr (.setlk _))), rc⟩ => rc < 0
  | ⟨.inr (.inr (.inr .lastOsError)), _⟩ => false

/-- The path that the import read resolves against the preopens it found. -/
def pathOk (resolve : List (PreopenMapping Str) → Str → Outcome (Except Errno Str)) : List (Event Files) → Bool
  | ⟨.inl (.readCstr _), .ok path⟩ :: ⟨.inr (.inl .preopens), preopens⟩ :: _ =>
    match resolve preopens path with
    | .returned (.ok _) => true
    | _ => false
  | _ => true

/-- The arguments are valid, as far as the import checks them itself. -/
def fileArgsOk : FileImport → List (Event Files) → Bool
  | .openFile _ flags _, tr => pathOk (WasmtimeMysql.resolve unixPaths) tr && flags &&& wasiODirectory == 0
  | .pread _ _ len _, _ => (checkedLen len).isOk
  | .seek _ offset whence, _ => (HostFiles.seekFrom offset whence).isOk
  | .truncate _ size, _ => 0 ≤ size
  | .syncParent _, tr => pathOk (WasmtimeMysql.resolveParent unixPaths) tr
  | _, _ => true

/-- The result of the operation, if this is the step that has it. A new file's is its guest fd. -/
def fileAnswerOf : FileImport → Event Files → Option Int
  | .openFile .., ⟨.inr (.inl (.files (.insert _))), r⟩ => some r.1.toInt
  | .close _, ⟨.inr (.inr (.inl (.drop _))), _⟩ => some 0
  | .pread .., ⟨.inr (.inr (.inl (.readAt ..))), .ok answer⟩ => some answer.n
  | .pwrite .., ⟨.inr (.inr (.inl (.writeAt ..))), .ok n⟩ => some n
  | .seek .., ⟨.inr (.inr (.inl (.seek ..))), .ok pos⟩ => some pos.toNat
  | .truncate .., ⟨.inr (.inr (.inl (.setLen ..))), _⟩ => some 0
  | .sync .., ⟨.inr (.inr (.inl (.syncData _))), _⟩ => some 0
  | .sync .., ⟨.inr (.inr (.inl (.syncAll _))), _⟩ => some 0
  | .syncParent _, ⟨.inr (.inr (.inl (.syncAll _))), _⟩ => some 0
  | .lockExclusive _, ⟨.inr (.inr (.inr (.setlk _))), _⟩ => some 0
  | _, _ => none

/-- The step transferred a count that `pread` or `pwrite` would turn into `EOVERFLOW`. -/
def fileOverflows : Event Files → Bool
  | ⟨.inr (.inr (.inl (.readAt ..))), .ok answer⟩ => (i32TryFromUsize answer.n).isNone
  | ⟨.inr (.inr (.inl (.writeAt ..))), .ok n⟩ => (i32TryFromUsize n).isNone
  | _ => false

/-- A transfer moves at most what it was asked to, and a lock request returns 0 or fails. -/
def fileContract : (c : ((Fs Str).sum FileHost).Cmd) → ((Fs Str).sum FileHost).Resp c → Prop
  | .inl (.readAt _ len _), .ok answer => answer.n ≤ len
  | .inl (.writeAt _ buf _), .ok n => n ≤ buf.length
  | .inr (.setlk _), rc => rc = 0 ∨ rc < 0
  | _, _ => True

/-- What the imports rely on: the table hands out descriptors from the base on. -/
def fileRelies : (c : Files.Cmd) → Files.Resp c → Prop
  | .inl c, r => memRelies c r
  | .inr (.inl (.files (.insert _))), r => fileFdBase ≤ r.1
  | .inr (.inl _), _ => True
  | .inr (.inr c), r => fileContract c r

/-- How the trace of an import is read. -/
@[reducible] def fileReport (c : FileImport) : Report Files where
  fails := fileStepFailed
  answer := fileAnswerOf c
  overflows := fileOverflows
  valid := fileArgsOk c

/-- The value is right for the trace. -/
abbrev FileTells (c : FileImport) (v : Int32) (tr : List (Event Files)) : Prop := (fileReport c).Tells v.toInt tr

/-- The trace so far, as what an import is known by. -/
abbrev fileSteps : Discipline Files (List (Event Files)) := .history fileRelies

/-! ## The steps -/

section
variable {tr : List (Event Files)}

/-- A read fails, or gives no more than `MAX_IO_LEN` bytes. -/
theorem fileSteps_readGuest {ptr len : Int32} {Q : Except Errno (List UInt8) → List (Event Files) → Prop}
    (herr : ∀ errno, Q (.error errno) (tr ++ [⟨.inl (.readGuest ptr len), .error errno⟩]))
    (hok : ∀ bytes, bytes.length ≤ maxIoLen → Q (.ok bytes) (tr ++ [⟨.inl (.readGuest ptr len), .ok bytes⟩])) :
    (readGuest ptr len : FileProg Str FileHost _).Obeys fileSteps Q tr := by
  refine ⟨trivial, ?_⟩
  intro r hr
  cases r with
  | error errno => exact herr errno
  | ok bytes => exact hok bytes hr

/-- A string cannot be read, or it can. -/
theorem fileSteps_readCstr {ptr : Int32} {Q : Except Errno Str → List (Event Files) → Prop}
    (herr : ∀ errno, Q (.error errno) (tr ++ [⟨.inl (.readCstr ptr), .error errno⟩]))
    (hok : ∀ path, Q (.ok path) (tr ++ [⟨.inl (.readCstr ptr), .ok path⟩])) :
    (readCstr ptr : FileProg Str FileHost _).Obeys fileSteps Q tr := by
  refine ⟨trivial, ?_⟩
  intro r _
  cases r with
  | error errno => exact herr errno
  | ok path => exact hok path

/-- A write fails or is done. -/
theorem fileSteps_writeGuest {ptr : Int32} {bytes : List UInt8} {Q : Except Errno Unit → List (Event Files) → Prop}
    (herr : ∀ errno, Q (.error errno) (tr ++ [⟨.inl (.writeGuest ptr bytes), .error errno⟩]))
    (hok : Q (.ok ()) (tr ++ [⟨.inl (.writeGuest ptr bytes), .ok ()⟩])) :
    (writeGuest ptr bytes : FileProg Str FileHost _).Obeys fileSteps Q tr := by
  refine ⟨trivial, ?_⟩
  intro r _
  cases r with
  | error errno => exact herr errno
  | ok _ => exact hok

/-- An allocation is a step that does not fail. -/
theorem fileSteps_alloc {n : Nat} {Q : Unit → List (Event Files) → Prop} (h : Q () (tr ++ [⟨.inl (.alloc n), ()⟩])) :
    (alloc n : FileProg Str FileHost _).Obeys fileSteps Q tr := ⟨trivial, fun _ _ => h⟩

/-- A slice is no step. Beyond the end nothing is returned. -/
theorem fileSteps_sliceTo {bytes : List UInt8} {n : Nat} {Q : List UInt8 → List (Event Files) → Prop}
    (h : Q (bytes.take n) tr) : (sliceTo bytes n : FileProg Str FileHost _).Obeys fileSteps Q tr := by
  unfold sliceTo
  split
  · exact h
  · trivial

/-- A lookup is a step that fails or gives a file. -/
theorem fileSteps_get {fd : Int32} {Q : Option File → List (Event Files) → Prop}
    (hnone : Q none (tr ++ [⟨.inr (.inl (.files (.get fd))), none⟩]))
    (hsome : ∀ file, Q (some file) (tr ++ [⟨.inr (.inl (.files (.get fd))), some file⟩])) :
    (files (.get fd) : FileProg Str FileHost _).Obeys fileSteps Q tr := by
  refine ⟨trivial, ?_⟩
  intro found _
  cases found with
  | none => exact hnone
  | some file => exact hsome file

/-- A call of std answers as it documents. -/
theorem fileSteps_fs {c : Fs.Cmd Str} {Q : c.Resp → List (Event Files) → Prop}
    (h : ∀ r, fileContract (.inl c) r → Q r (tr ++ [⟨.inr (.inr (.inl c)), r⟩])) :
    (fs c : FileProg Str FileHost _).Obeys fileSteps Q tr := ⟨trivial, h⟩

/-- The preopens are asked for in a step that does not fail. -/
theorem fileSteps_getPreopens {Q : List (PreopenMapping Str) → List (Event Files) → Prop}
    (h : ∀ preopens, Q preopens (tr ++ [⟨.inr (.inl .preopens), preopens⟩])) :
    (getPreopens : FileProg Str FileHost _).Obeys fileSteps Q tr := ⟨trivial, fun r _ => h r⟩

/-! ## The end of an import -/

variable {c : FileImport}

/-- An errno is right where an argument or a step is not. -/
theorem fileTells_error {errno : Errno} (h : fileArgsOk c tr = false ∨ tr.any fileStepFailed = true)
    (hov : tr.any fileOverflows = false) : FileTells c (negErrno errno) tr :=
  Report.tells_error ⟨errno, toInt_negErrno errno⟩ h hov

/-- A result is right where all steps succeeded and it is theirs. -/
theorem fileTells_ok {v : Int32} (hargs : fileArgsOk c tr = true) (hsteps : tr.any fileStepFailed = false)
    (hov : tr.any fileOverflows = false) (hv : 0 ≤ v) (hanswer : tr.findSome? (fileAnswerOf c) = some v.toInt) :
    FileTells c v tr :=
  Report.tells_ok hargs hsteps hov (Int32.le_iff_toInt_le.mp hv) hanswer

/-- The last step failed. -/
theorem fileTells_error_last {errno : Errno} {ev : Event Files} (hev : fileStepFailed ev = true)
    (hov : (tr ++ [ev]).any fileOverflows = false) : FileTells c (negErrno errno) (tr ++ [ev]) := by
  refine fileTells_error (.inr ?_) hov
  rw [any_snoc, hev, Bool.or_true]

end

/-! ## The imports -/

section
variable (lc : Libc)

/-- The import tells the truth about its steps. -/
def FileHonest (c : FileImport) (p : FileProg Str FileHost Int32) : Prop := p.Obeys fileSteps (FileTells c) []

/-- `truncate` is honest. -/
theorem honest_truncate (fd : Int32) (size : Int64) :
    FileHonest (.truncate fd size) (HostFiles.truncate (ioErrno lc) fd size) := by
  unfold FileHonest HostFiles.truncate
  split
  · rename_i hsize
    have hargs : fileArgsOk (.truncate fd size) [] = false := decide_eq_false (Int64.not_le.mpr hsize)
    exact fileTells_error (.inl hargs) rfl
  · rename_i hsize
    have hargs (tr : List (Event Files)) : fileArgsOk (.truncate fd size) tr = true := decide_eq_true (Int64.not_lt.mp hsize)
    refine Prog.obeys_bind.mpr (fileSteps_get (fileTells_error (.inr rfl) rfl) ?_)
    intro file
    refine Prog.obeys_bind.mpr (fileSteps_fs ?_)
    intro result _
    cases result with
    | error err => exact fileTells_error (.inr rfl) rfl
    | ok _ => exact fileTells_ok (hargs _) rfl rfl (Int32.le_refl 0) rfl

/-- `sync` is honest. -/
theorem honest_sync (fd dataOnly : Int32) : FileHonest (.sync fd dataOnly) (HostFiles.sync (ioErrno lc) fd dataOnly) := by
  refine Prog.obeys_bind.mpr (fileSteps_get (fileTells_error (.inr rfl) rfl) ?_)
  intro file
  dsimp only
  split
  · refine Prog.obeys_bind.mpr (fileSteps_fs ?_)
    intro result _
    cases result with
    | error err => exact fileTells_error (.inr rfl) rfl
    | ok _ => exact fileTells_ok rfl rfl rfl (Int32.le_refl 0) rfl
  · refine Prog.obeys_bind.mpr (fileSteps_fs ?_)
    intro result _
    cases result with
    | error err => exact fileTells_error (.inr rfl) rfl
    | ok _ => exact fileTells_ok rfl rfl rfl (Int32.le_refl 0) rfl

/-- `lock_exclusive` is honest. -/
theorem honest_lockExclusive (fd : Int32) : FileHonest (.lockExclusive fd) (lockExclusive lc fd) := by
  refine Prog.obeys_bind.mpr (fileSteps_get (fileTells_error (.inr rfl) rfl) ?_)
  intro file
  refine Prog.obeys_bind.mpr ⟨trivial, ?_⟩
  intro (rc : Int32) (hcontract : rc = 0 ∨ rc < 0)
  dsimp only [Prog.Obeys]
  split
  · rename_i hrc
    subst hrc
    exact fileTells_ok rfl rfl rfl (Int32.le_refl 0) rfl
  · rename_i hrc
    have hneg : rc < 0 := hcontract.resolve_left hrc
    refine Prog.obeys_bind.mpr ⟨trivial, ?_⟩
    intro err _
    refine fileTells_error (.inr ?_) rfl
    simp [Discipline.history, fileStepFailed, hneg]

/-- `close` is honest. -/
theorem honest_closeFile (fd : Int32) : FileHonest (.close fd) (closeFile fd) := by
  refine Prog.obeys_bind.mpr ⟨trivial, ?_⟩
  intro found _
  cases found with
  | none => exact fileTells_error (.inr rfl) rfl
  | some file =>
    refine Prog.obeys_bind.mpr (fileSteps_fs ?_)
    intro _ _
    exact fileTells_ok rfl rfl rfl (Int32.le_refl 0) rfl

/-- `pwrite` is honest. -/
theorem honest_pwrite (fd bufPtr len : Int32) (offset : Int64) :
    FileHonest (.pwrite fd bufPtr len offset) (HostFiles.pwrite (ioErrno lc) fd bufPtr len offset) := by
  refine Prog.obeys_bind.mpr (fileSteps_readGuest (fun _ => fileTells_error (.inr rfl) rfl) ?_)
  intro buf hbuf
  refine Prog.obeys_bind.mpr (fileSteps_get (fileTells_error (.inr rfl) rfl) ?_)
  intro file
  refine Prog.obeys_bind.mpr (fileSteps_fs ?_)
  intro result hcontract
  cases result with
  | error err => exact fileTells_error (.inr rfl) rfl
  | ok n =>
    obtain ⟨hfits, hnonneg, htoInt⟩ := i32TryFromUsize_of_le (Nat.le_trans hcontract hbuf)
    have hov : fileOverflows ⟨.inr (.inr (.inl (.writeAt file buf offset.toUInt64))), .ok n⟩ = false := by
      rw [fileOverflows, hfits]
      rfl
    dsimp only
    rw [hfits]
    refine fileTells_ok rfl rfl (none_snoc rfl hov) hnonneg ?_
    rw [htoInt]
    rfl

/-- `pread` is honest. -/
theorem honest_pread (fd bufPtr len : Int32) (offset : Int64) :
    FileHonest (.pread fd bufPtr len offset) (HostFiles.pread (ioErrno lc) fd bufPtr len offset) := by
  unfold FileHonest HostFiles.pread
  cases hlen : checkedLen len with
  | error errno =>
    have hargs : fileArgsOk (.pread fd bufPtr len offset) [] = false := by rw [fileArgsOk, hlen]; rfl
    exact fileTells_error (.inl hargs) rfl
  | ok n =>
    have hargs (tr : List (Event Files)) : fileArgsOk (.pread fd bufPtr len offset) tr = true := by rw [fileArgsOk, hlen]; rfl
    refine Prog.obeys_bind.mpr (fileSteps_alloc ?_)
    refine Prog.obeys_bind.mpr (Prog.obeys_bind.mpr (fileSteps_get ?_ ?_))
    · exact fileTells_error (.inr rfl) rfl
    · intro file
      refine Prog.obeys_bind.mpr (fileSteps_fs ?_)
      intro result hcontract
      cases result with
      | error err =>
        have hneg : negErrno (ioErrno lc err) ≤ 0 := Int32.le_of_lt (negErrno_lt_zero _)
        dsimp only [Prog.Obeys, Prog.pure_eq]
        rw [if_pos hneg]
        exact fileTells_error (.inr rfl) rfl
      | ok answer =>
        obtain ⟨hfits, hnonneg, htoInt⟩ := i32TryFromUsize_of_le (Nat.le_trans hcontract (checkedLen_le hlen))
        have hov : fileOverflows ⟨.inr (.inr (.inl (.readAt file n offset.toUInt64))), .ok answer⟩ = false := by
          rw [fileOverflows, hfits]
          rfl
        dsimp only
        rw [hfits]
        dsimp only [Prog.Obeys, Prog.pure_eq]
        split
        · refine fileTells_ok (hargs _) rfl (none_snoc rfl hov) hnonneg ?_
          rw [htoInt]
          rfl
        · refine Prog.obeys_bind.mpr (fileSteps_sliceTo ?_)
          refine Prog.obeys_bind.mpr (fileSteps_writeGuest ?_ ?_)
          · intro errno
            exact fileTells_error_last rfl (none_snoc (none_snoc rfl hov) rfl)
          · refine fileTells_ok (hargs _) rfl (none_snoc (none_snoc rfl hov) rfl) hnonneg ?_
            rw [htoInt]
            rfl

/-- A 32-bit errno as the `i64` of `seek`. -/
theorem toInt_toInt64_negErrno (errno : Errno) : (negErrno errno).toInt64.toInt = -errno.code.toInt := by
  rw [Int32.toInt_toInt64, toInt_negErrno]

/-- A position below `2 ^ 63` is the `i64` of the same value. -/
theorem toInt_toInt64_of_lt {pos : UInt64} (h : pos.toNat < 2 ^ 63) : pos.toInt64.toInt = pos.toNat := by
  have hbits : 2 * pos.toBitVec.toNat < 2 ^ 64 := by
    rw [UInt64.toNat_toBitVec]
    omega
  exact BitVec.toInt_eq_toNat_of_lt hbits

/-- `seek` is honest. -/
theorem honest_seek (fd : Int32) (offset : Int64) (whence : Int32) :
    (HostFiles.seek (ioErrno lc) fd offset whence : FileProg Str FileHost Int64).Obeys fileSteps
      (fun v tr => (fileReport (.seek fd offset whence)).Tells v.toInt tr) [] := by
  have herror {errno : Errno} {tr : List (Event Files)}
      (h : fileArgsOk (.seek fd offset whence) tr = false ∨ tr.any fileStepFailed = true) (hov : tr.any fileOverflows = false) :
      (fileReport (.seek fd offset whence)).Tells (negErrno errno).toInt64.toInt tr :=
    Report.tells_error ⟨errno, toInt_toInt64_negErrno errno⟩ h hov
  refine Prog.obeys_bind.mpr (fileSteps_get (herror (.inr rfl) rfl) ?_)
  intro file
  dsimp only
  cases hpos : HostFiles.seekFrom offset whence with
  | error errno =>
    refine herror (.inl ?_) rfl
    rw [fileArgsOk, hpos]
    rfl
  | ok pos =>
    have hargs : (HostFiles.seekFrom offset whence).isOk = true := by rw [hpos]; rfl
    refine Prog.obeys_bind.mpr (fileSteps_fs ?_)
    intro result _
    cases result with
    | error err => exact herror (.inr rfl) rfl
    | ok reached =>
      dsimp only
      split
      · rename_i hlt
        have htoInt := toInt_toInt64_of_lt hlt
        have hstep : fileStepFailed ⟨.inr (.inr (.inl (.seek file pos))), .ok reached⟩ = false := decide_eq_false (Nat.not_le.mpr hlt)
        refine Report.tells_ok hargs (none_snoc rfl hstep) rfl ?_ ?_
        · rw [htoInt]
          exact Int.natCast_nonneg _
        · rw [htoInt]
          rfl
      · rename_i hlt
        have hstep : fileStepFailed ⟨.inr (.inr (.inl (.seek file pos))), .ok reached⟩ = true := decide_eq_true (Nat.not_lt.mp hlt)
        refine herror (.inr ?_) rfl
        rw [any_snoc, hstep, Bool.or_true]

/-- `open` is honest. -/
theorem honest_openFile (pathPtr flags mode : Int32) :
    FileHonest (.openFile pathPtr flags mode) (openFile lc pathPtr flags) := by
  refine Prog.obeys_bind.mpr (fileSteps_readCstr (fun _ => fileTells_error (.inr rfl) rfl) ?_)
  intro path
  refine Prog.obeys_bind.mpr (Prog.obeys_bind.mpr (Prog.obeys_bind.mpr (fileSteps_getPreopens ?_)))
  intro preopens
  cases hresolve : WasmtimeMysql.resolve unixPaths preopens path with
  | panicked => trivial
  | returned resolved =>
    have hpath (tr : List (Event Files)) : fileArgsOk (.openFile pathPtr flags mode)
        (⟨.inl (.readCstr pathPtr), .ok path⟩ :: ⟨.inr (.inl .preopens), preopens⟩ :: tr) =
        (resolved.isOk && flags &&& wasiODirectory == 0) := by
      rw [fileArgsOk, pathOk, hresolve]
      cases resolved <;> rfl
    cases resolved with
    | error errno => exact fileTells_error (.inl (hpath [])) rfl
    | ok hostPath =>
      dsimp only [ofOutcome, Prog.pure_eq, Prog.Obeys]
      split
      · rename_i hdir
        refine fileTells_error (.inl ((hpath []).trans ?_)) rfl
        simpa [Except.isOk, Except.toBool] using hdir
      · rename_i hdir
        have hargs (tr : List (Event Files)) : fileArgsOk (.openFile pathPtr flags mode)
            (⟨.inl (.readCstr pathPtr), .ok path⟩ :: ⟨.inr (.inl .preopens), preopens⟩ :: tr) = true := by
          refine (hpath tr).trans ?_
          simpa [Except.isOk, Except.toBool] using hdir
        refine Prog.obeys_bind.mpr (fileSteps_fs ?_)
        intro result _
        cases result with
        | error err => exact fileTells_error (.inr rfl) rfl
        | ok file =>
          refine Prog.obeys_bind.mpr ⟨trivial, ?_⟩
          intro (r : Int32 × Option File) (hr : fileFdBase ≤ r.1)
          have hnonneg : 0 ≤ r.1 := Int32.le_trans (by decide : (0 : Int32) ≤ fileFdBase) hr
          obtain ⟨fd, replaced⟩ := r
          cases replaced with
          | none => exact fileTells_ok (hargs _) rfl rfl hnonneg rfl
          | some old =>
            refine Prog.obeys_bind.mpr (fileSteps_fs ?_)
            intro _ _
            exact fileTells_ok (hargs _) rfl rfl hnonneg rfl

/-- `sync_parent` is honest. -/
theorem honest_syncParent (pathPtr : Int32) : FileHonest (.syncParent pathPtr) (syncParent lc pathPtr) := by
  refine Prog.obeys_bind.mpr (fileSteps_readCstr (fun _ => fileTells_error (.inr rfl) rfl) ?_)
  intro path
  refine Prog.obeys_bind.mpr (Prog.obeys_bind.mpr (fileSteps_getPreopens ?_))
  intro preopens
  cases hresolve : WasmtimeMysql.resolveParent unixPaths preopens path with
  | panicked => trivial
  | returned resolved =>
    have hargs (tr : List (Event Files)) : fileArgsOk (.syncParent pathPtr)
        (⟨.inl (.readCstr pathPtr), .ok path⟩ :: ⟨.inr (.inl .preopens), preopens⟩ :: tr) = resolved.isOk := by
      rw [fileArgsOk, pathOk, hresolve]
      cases resolved <;> rfl
    cases resolved with
    | error errno => exact fileTells_error (.inl (hargs [])) rfl
    | ok parent =>
      refine Prog.obeys_bind.mpr (Prog.obeys_bind.mpr (fileSteps_fs ?_))
      intro opened _
      cases opened with
      | error err => exact fileTells_error (.inr rfl) rfl
      | ok directory =>
        refine Prog.obeys_bind.mpr (fileSteps_fs ?_)
        intro result _
        refine Prog.obeys_bind.mpr (fileSteps_fs ?_)
        intro _ _
        cases result with
        | error err => exact fileTells_error (.inr rfl) rfl
        | ok _ => exact fileTells_ok (hargs _) rfl rfl (Int32.le_refl 0) rfl

/-- Every import tells the truth about its steps. -/
theorem honest_fileProg (c : FileImport) :
    (fileProg lc c).Obeys fileSteps (fun v tr => (fileReport c).Tells v.toInt tr) [] := by
  have hwiden {p : FileProg Str FileHost Int32} (h : FileHonest c p) :
      (Int32.toInt64 <$> p).Obeys fileSteps (fun v tr => (fileReport c).Tells v.toInt tr) [] := by
    refine Prog.obeys_map.mpr ?_
    simp only [Int32.toInt_toInt64]
    exact h
  cases c with
  | openFile pathPtr flags mode => exact hwiden (honest_openFile lc pathPtr flags mode)
  | close fd => exact hwiden (honest_closeFile fd)
  | pread fd bufPtr len offset => exact hwiden (honest_pread lc fd bufPtr len offset)
  | pwrite fd bufPtr len offset => exact hwiden (honest_pwrite lc fd bufPtr len offset)
  | seek fd offset whence => exact honest_seek lc fd offset whence
  | truncate fd size => exact hwiden (honest_truncate lc fd size)
  | sync fd dataOnly => exact hwiden (honest_sync lc fd dataOnly)
  | syncParent pathPtr => exact hwiden (honest_syncParent lc pathPtr)
  | lockExclusive fd => exact hwiden (honest_lockExclusive lc fd)

end

/-- A host that keeps to the contract and is otherwise free. -/
def anyFileHost : Machine ((Fs Str).sum FileHost) Unit := fun _ c r _ => fileContract c r

/-- The machine of the module answers as relied on. -/
theorem fileRelies_of_machine {s s' : Export × (HostFilesInner Str × Unit)} {c : Files.Cmd} {r : Files.Resp c}
    (h : fileMachine guestMachine anyFileHost s c r s') : fileRelies c r := by
  match c, r, h with
  | .inl c, r, h => exact memRelies_of_guestMachine h.1
  | .inr (.inl .preopens), _, _ => trivial
  | .inr (.inl (.files (.insert e))), r, h =>
    obtain ⟨hr, -⟩ := Machine.eq_of_det (S := HostFilesInner.Sig Str) h.1.1
    subst hr
    exact s.2.1.files.base_le
  | .inr (.inl (.files (.get _))), _, _ => trivial
  | .inr (.inl (.files (.remove _))), _, _ => trivial
  | .inr (.inr c), r, h => exact h.1.1

/-- What an import returns tells the truth about its trace. -/
theorem fileTells_of_runs {lc : Libc} {c : FileImport} {s s' : Export × (HostFilesInner Str × Unit)} {tr : List (Event Files)}
    {v : Int64} (h : Runs (fileMachine guestMachine anyFileHost) (fileProg lc c) s tr (.returned v) s') :
    (fileReport c).Tells v.toInt tr := by
  have htells := Prog.Obeys.of_runs (fun _ _ _ _ => fileRelies_of_machine) h (honest_fileProg lc c) rfl
  rw [Discipline.after_history] at htells
  exact htells

end WasmtimeMysql.Unix
