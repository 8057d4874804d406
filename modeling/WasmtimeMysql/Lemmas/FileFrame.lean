import WasmtimeMysql.Lemmas.Frame

/-!
# The file imports keep to their output regions

Only `pread` writes guest memory, and only its buffer (`frames_unixFile`, `frames_windowsFile`).
-/

namespace WasmtimeMysql

open Effects Bytes

namespace FileFrameAux

section
variable {P : Type} {Host : Sig} {α : Type}

/-- A command on the file table writes nothing to guest memory by itself, ... -/
theorem noWrite_files {c : FdTable.Cmd File Empty} {k : c.Resp → FileProg P Host α} (hk : ∀ r, (k r).Only NoWrite) :
    (files c >>= k).Only NoWrite := .bind (noWrite_host _) hk

/-- ... nor does a call of std ... -/
theorem noWrite_fs {c : Fs.Cmd P} {k : c.Resp → FileProg P Host α} (hk : ∀ r, (k r).Only NoWrite) :
    (fs c >>= k).Only NoWrite := .bind (noWrite_host _) hk

/-- ... or another call to the host. -/
theorem noWrite_own {c : Host.Cmd} {k : Host.Resp c → FileProg P Host α} (hk : ∀ r, (k r).Only NoWrite) :
    (own c >>= k).Only NoWrite := .bind (noWrite_host _) hk

/-- An outcome that is passed on writes nothing. -/
theorem noWrite_ofOutcome (o : Outcome α) : (ofOutcome o : FileProg P Host α).Only NoWrite := by
  cases o <;> trivial

/-- `resolve` asks the table only. -/
theorem noWrite_resolve (os : PathOs) (guestPath : Str) :
    (HostFiles.resolve os guestPath : FileProg os.Path Host _).Only NoWrite :=
  .bind (noWrite_host _) fun _ => noWrite_ofOutcome _

/-- `resolve_parent` asks the table only. -/
theorem noWrite_resolveParent (os : PathOs) (guestPath : Str) :
    (HostFiles.resolveParent os guestPath : FileProg os.Path Host _).Only NoWrite :=
  .bind (noWrite_host _) fun _ => noWrite_ofOutcome _

/-- Up to the host's file `open` only reads the path. -/
theorem noWrite_openHost (os : PathOs) (ioErrno : IoError → Errno) (guestPath : Str) (flags : Int32) :
    (HostFiles.openHost os ioErrno guestPath flags : FileProg os.Path Host _).Only NoWrite := by
  refine noWrite_try (noWrite_resolve os guestPath) (fun _ => trivial) fun hostPath => ?_
  simp only
  split
  · trivial
  · refine noWrite_fs fun opened => ?_
    cases opened <;> trivial

/-- An insertion writes nothing. -/
theorem noWrite_insertFile (file : File) : (HostFiles.insertFile file : FileProg P Host _).Only NoWrite := by
  refine noWrite_files fun inserted => ?_
  obtain ⟨fd, replaced⟩ := inserted
  cases replaced with
  | none => trivial
  | some old => exact noWrite_fs fun _ => trivial

variable (ioErrno : IoError → Errno)

/-- `pwrite` under the mutex writes nothing to guest memory. -/
theorem noWrite_pwriteFile (fd : Int32) (buf : List UInt8) (offset : UInt64) :
    (HostFiles.pwriteFile ioErrno fd buf offset : FileProg P Host _).Only NoWrite := by
  refine noWrite_files fun found => ?_
  cases found with
  | none => trivial
  | some file =>
    refine noWrite_fs fun written => ?_
    cases written with
    | error err => trivial
    | ok n =>
      simp only
      split <;> trivial

/-- `pwrite` only reads its buffer. -/
theorem noWrite_pwrite (fd bufPtr len : Int32) (offset : Int64) :
    (HostFiles.pwrite ioErrno fd bufPtr len offset : FileProg P Host _).Only NoWrite :=
  noWrite_try (noWrite_readGuest bufPtr len) (fun _ => trivial) fun buf => noWrite_pwriteFile ioErrno fd buf offset.toUInt64

/-- `pread` under the mutex writes nothing to guest memory. -/
theorem noWrite_preadFile (fd : Int32) (len : Nat) (offset : UInt64) :
    (HostFiles.preadFile ioErrno fd len offset : FileProg P Host _).Only NoWrite := by
  refine noWrite_files fun found => ?_
  cases found with
  | none => trivial
  | some file =>
    refine noWrite_fs fun answer => ?_
    cases answer with
    | error err => trivial
    | ok answer =>
      simp only
      split <;> trivial

/-- `seek` has no output. -/
theorem noWrite_seek (fd : Int32) (offset : Int64) (whence : Int32) :
    (HostFiles.seek ioErrno fd offset whence : FileProg P Host _).Only NoWrite := by
  refine noWrite_files fun found => ?_
  cases found with
  | none => trivial
  | some file =>
    simp only
    split
    · trivial
    · refine noWrite_fs fun answer => ?_
      cases answer with
      | error err => trivial
      | ok pos =>
        simp only
        split <;> trivial

/-- `truncate` has no output. -/
theorem noWrite_truncate (fd : Int32) (size : Int64) : (HostFiles.truncate ioErrno fd size : FileProg P Host _).Only NoWrite := by
  unfold HostFiles.truncate
  split
  · trivial
  · refine noWrite_files fun found => ?_
    cases found with
    | none => trivial
    | some file => exact noWrite_fs fun _ => trivial

/-- `sync` has no output. -/
theorem noWrite_sync (fd dataOnly : Int32) : (HostFiles.sync ioErrno fd dataOnly : FileProg P Host _).Only NoWrite := by
  refine noWrite_files fun found => ?_
  cases found with
  | none => trivial
  | some file =>
    simp only
    split
    · exact noWrite_fs fun _ => trivial
    · exact noWrite_fs fun _ => trivial

variable {e : Export}

/-- `pread` writes to its buffer only. -/
theorem frames_pread (fd bufPtr len : Int32) (offset : Int64) :
    Frames e (regionAt bufPtr len.toNatClampNeg) (HostFiles.pread ioErrno fd bufPtr len offset : FileProg P Host _) := by
  unfold Frames HostFiles.pread
  cases hlen : checkedLen len with
  | error errno => trivial
  | ok n =>
    have hn := eq_of_checkedLen hlen
    refine Prog.obeys_bind.mpr (frames_alloc ?_)
    refine Prog.obeys_bind.mpr (frames_noWrite (noWrite_preadFile ioErrno fd n _) fun answer => ?_)
    obtain ⟨rc, data⟩ := answer
    simp only
    split
    · trivial
    · refine Prog.obeys_bind.mpr (frames_sliceTo fun bytes hle => ?_)
      rw [length_fill, hn] at hle
      refine Prog.obeys_bind.mpr (frames_writeGuest (.of_regionAt (fun _ hr => hr) hle) fun written => ?_)
      cases written <;> trivial

end

section
variable (lc : Libc) {e : Export}

/-- `open` only reads its path, on Unix. -/
theorem noWrite_unixOpen (pathPtr flags : Int32) : (Unix.openFile lc pathPtr flags).Only NoWrite := by
  refine noWrite_try (noWrite_readCstr pathPtr) (fun _ => trivial) fun path => ?_
  exact noWrite_try (noWrite_openHost unixPaths _ path flags) (fun _ => trivial) fun opened => noWrite_insertFile opened.2

/-- `close` has no output. -/
theorem noWrite_unixClose (fd : Int32) : (Unix.closeFile fd).Only NoWrite := by
  refine noWrite_files fun found => ?_
  cases found with
  | none => trivial
  | some file => exact noWrite_fs fun _ => trivial

/-- A directory is synced without a write to guest memory. -/
theorem noWrite_unixSyncDirectory (parent : Str) : (Unix.syncDirectory parent).Only NoWrite := by
  refine noWrite_fs fun opened => ?_
  cases opened with
  | error err => trivial
  | ok directory => exact noWrite_fs fun _ => noWrite_fs fun _ => trivial

/-- `sync_parent` only reads its path. -/
theorem noWrite_unixSyncParent (pathPtr : Int32) : (Unix.syncParent lc pathPtr).Only NoWrite := by
  refine noWrite_try (noWrite_readCstr pathPtr) (fun _ => trivial) fun path => ?_
  refine noWrite_try (noWrite_resolveParent unixPaths path) (fun _ => trivial) fun parent => ?_
  exact .bind (noWrite_unixSyncDirectory parent) fun _ => trivial

/-- `lock_exclusive` has no output. -/
theorem noWrite_unixLock (fd : Int32) : (Unix.lockExclusive lc fd).Only NoWrite := by
  refine noWrite_files fun found => ?_
  cases found with
  | none => trivial
  | some file =>
    refine noWrite_own fun rc => ?_
    split
    · trivial
    · exact noWrite_own fun _ => trivial

/-- Every import writes to its outputs only. -/
theorem frames_unixFile (c : FileImport) : Frames e c.outputs (Unix.fileProg lc c) := by
  cases c with
  | openFile pathPtr flags mode => exact .of_noWrite (noWrite_map (noWrite_unixOpen lc pathPtr flags))
  | close fd => exact .of_noWrite (noWrite_map (noWrite_unixClose fd))
  | pread fd bufPtr len offset => exact Prog.obeys_map.mpr (frames_pread _ fd bufPtr len offset)
  | pwrite fd bufPtr len offset => exact .of_noWrite (noWrite_map (noWrite_pwrite _ fd bufPtr len offset))
  | seek fd offset whence => exact .of_noWrite (noWrite_seek _ fd offset whence)
  | truncate fd size => exact .of_noWrite (noWrite_map (noWrite_truncate _ fd size))
  | sync fd dataOnly => exact .of_noWrite (noWrite_map (noWrite_sync _ fd dataOnly))
  | syncParent pathPtr => exact .of_noWrite (noWrite_map (noWrite_unixSyncParent lc pathPtr))
  | lockExclusive fd => exact .of_noWrite (noWrite_map (noWrite_unixLock lc fd))

end

section
variable {e : Export}

/-- A command on the maps of locks writes nothing to guest memory by itself, ... -/
theorem noWrite_lockMaps {c : Windows.LockMaps.Cmd} {α : Type} {k : c.Resp → FileProg WinPath Windows.FileHost α}
    (hk : ∀ r, (k r).Only NoWrite) : (Windows.lockMaps c >>= k).Only NoWrite := noWrite_own hk

/-- ... nor does a call of Win32. -/
theorem noWrite_win32 {c : Windows.Win32.Cmd} {α : Type} {k : c.Resp → FileProg WinPath Windows.FileHost α}
    (hk : ∀ r, (k r).Only NoWrite) : (Windows.win32 c >>= k).Only NoWrite := noWrite_own hk

/-- `open` only reads its path, on Windows. -/
theorem noWrite_windowsOpen (pathPtr flags : Int32) : (Windows.openFile pathPtr flags).Only NoWrite := by
  refine noWrite_try (noWrite_readCstr pathPtr) (fun _ => trivial) fun path => ?_
  refine noWrite_try (noWrite_openHost windowsPaths _ path flags) (fun _ => trivial) fun opened => ?_
  obtain ⟨hostPath, file⟩ := opened
  refine noWrite_win32 fun canonical => ?_
  exact .bind (noWrite_insertFile file) fun fd => noWrite_lockMaps fun _ => trivial

/-- `close` has no output. -/
theorem noWrite_windowsClose (fd : Int32) : (Windows.closeFile fd).Only NoWrite := by
  refine noWrite_files fun found => ?_
  cases found with
  | none => trivial
  | some file => exact noWrite_fs fun _ => noWrite_lockMaps fun _ => trivial

/-- A directory is synced without a write to guest memory. -/
theorem noWrite_windowsSyncDirectory (path : WinPath) : (Windows.syncDirectory path).Only NoWrite := by
  refine noWrite_win32 fun opened => ?_
  cases opened with
  | none => exact noWrite_win32 fun _ => trivial
  | some handle =>
    refine noWrite_win32 fun flushed => ?_
    split
    · exact noWrite_win32 fun _ => trivial
    · exact noWrite_win32 fun _ => noWrite_win32 fun _ => trivial

/-- `sync_parent` only reads its path. -/
theorem noWrite_windowsSyncParent (pathPtr : Int32) : (Windows.syncParent pathPtr).Only NoWrite := by
  refine noWrite_try (noWrite_readCstr pathPtr) (fun _ => trivial) fun path => ?_
  refine noWrite_try (noWrite_resolveParent windowsPaths path) (fun _ => trivial) fun parent => ?_
  exact .bind (noWrite_windowsSyncDirectory parent) fun _ => trivial

/-- A lock is kept without a write to guest memory. -/
theorem noWrite_windowsInsertLock (path : WinParts) (handle : Windows.Handle) : (Windows.insertLock path handle).Only NoWrite := by
  refine noWrite_lockMaps fun replaced => ?_
  cases replaced with
  | none => trivial
  | some old => exact noWrite_host _

/-- `lock_exclusive` has no output. -/
theorem noWrite_windowsLock (toUppercase : Str → Str) (fd : Int32) : (Windows.lockExclusive toUppercase fd).Only NoWrite := by
  refine noWrite_lockMaps fun found => ?_
  cases found with
  | none => trivial
  | some lockPath =>
    refine noWrite_lockMaps fun held => ?_
    split
    · trivial
    · refine noWrite_files fun file => ?_
      cases file with
      | none => trivial
      | some _ =>
        refine noWrite_win32 fun created => ?_
        cases created with
        | none => exact noWrite_win32 fun _ => trivial
        | some handle =>
          refine noWrite_win32 fun code => ?_
          split
          · exact noWrite_win32 fun _ => trivial
          · exact .bind (noWrite_windowsInsertLock lockPath handle) fun _ => trivial

/-- Every import writes to its outputs only. -/
theorem frames_windowsFile (toUppercase : Str → Str) (c : FileImport) : Frames e c.outputs (Windows.fileProg toUppercase c) := by
  cases c with
  | openFile pathPtr flags mode => exact .of_noWrite (noWrite_map (noWrite_windowsOpen pathPtr flags))
  | close fd => exact .of_noWrite (noWrite_map (noWrite_windowsClose fd))
  | pread fd bufPtr len offset => exact Prog.obeys_map.mpr (frames_pread _ fd bufPtr len offset)
  | pwrite fd bufPtr len offset => exact .of_noWrite (noWrite_map (noWrite_pwrite _ fd bufPtr len offset))
  | seek fd offset whence => exact .of_noWrite (noWrite_seek _ fd offset whence)
  | truncate fd size => exact .of_noWrite (noWrite_map (noWrite_truncate _ fd size))
  | sync fd dataOnly => exact .of_noWrite (noWrite_map (noWrite_sync _ fd dataOnly))
  | syncParent pathPtr => exact .of_noWrite (noWrite_map (noWrite_windowsSyncParent pathPtr))
  | lockExclusive fd => exact .of_noWrite (noWrite_map (noWrite_windowsLock toUppercase fd))

end

end FileFrameAux

end WasmtimeMysql
